import PickleInfra.Backup.Evidence
import PickleInfra.Backup.Freshness
import PickleInfra.Discord.DbCache
import PickleInfra.Python.Ascii

/-!
# `Backup.Readable` — the cache and its two readers

`freshness` leaves the cache. The summary restates its schema, down to the stamp in the name of the snapshot, and the
alerts read its times.
-/

namespace PickleInfra
namespace Backup

open Python JsonText

/-- `backup_id` of a configuration that `validate` accepts: `[a-z][a-z0-9-]{0,62}`. -/
def Config.hasBackupId (c : Config) : Bool :=
  Text.fullmatchFirst Text.isLower (fun ch => Text.isLower ch || Text.isDigit ch || ch = '-') 62 c.backupId

/-! ## The name -/

/-- **The group of the data** is one to the pattern of the summary. -/
theorem isGroup_backupId {c : Config} (h : c.hasBackupId = true) : Stamp.isGroup c.backupId = true := by
  unfold Config.hasBackupId Text.fullmatchFirst at h
  unfold Stamp.isGroup Text.fullmatchFirst
  cases hchars : c.backupId.toList with
  | nil        =>
    rw [hchars] at h
    cases h
  | cons a rest =>
    rw [hchars] at h
    simp only [Bool.and_eq_true, decide_eq_true_eq, List.all_eq_true] at h ⊢
    obtain ⟨⟨hfirst, hall⟩, hlength⟩ := h
    refine ⟨⟨?_, fun x hx => ?_⟩, by omega⟩
    · simp only [Stamp.isGroupChar, Url.isAsciiAlpha, hfirst, Bool.true_or]
    · have hx := hall x hx
      simp only [Bool.or_eq_true, decide_eq_true_eq] at hx
      rcases hx with (hx | hx) | hx <;>
        simp only [Stamp.isGroupChar, Url.isAsciiAlpha, hx, Bool.true_or, Bool.or_true, decide_true]

theorem not_slash_of_isGroup {s : String} (h : Stamp.isGroup s = true) : '/' ∉ s.toList := by
  unfold Stamp.isGroup Text.fullmatchFirst at h
  intro hmem
  cases hchars : s.toList with
  | nil         =>
    rw [hchars] at hmem
    cases hmem
  | cons a rest =>
    rw [hchars] at h hmem
    simp only [Bool.and_eq_true, List.all_eq_true] at h
    rcases List.mem_cons.mp hmem with rfl | hrest
    · exact absurd h.1.1 (by decide)
    · exact absurd (h.1.2 _ hrest) (by decide)

/-- **The name of a snapshot** is one to the summary, with the same second. -/
theorem snapshot_readable {c : Config} {epoch : Int} {name : String} (hid : c.hasBackupId = true)
    (h : snapshotName c epoch false = .ok name) :
    Stamp.isSnapshot name = true ∧ Stamp.strptime (Stamp.rest name.toList) = some epoch := by
  unfold snapshotName Calendar.utcStamp at h
  split at h
  · next stamp hstamp =>
    split at hstamp
    · next hrange =>
      cases hstamp
      cases h
      have hgroup := isGroup_backupId hid
      have hstamp := Stamp.isStamp_stampText hrange
      have hsplit : ("host/" ++ groupId c false ++ "/" ++ String.ofList (Calendar.stampText epoch)).toList.splitOn '/' =
          ["host".toList, c.backupId.toList, Calendar.stampText epoch] := by
        have hchars : ("host/" ++ groupId c false ++ "/" ++ String.ofList (Calendar.stampText epoch)).toList =
            "host".toList ++ '/' :: (c.backupId.toList ++ '/' :: Calendar.stampText epoch) := by
          simp [groupId]
        rw [hchars]
        exact Stamp.splitOn_three (by decide) (not_slash_of_isGroup hgroup) (Stamp.not_slash_of_isStamp hstamp)
      unfold Stamp.isSnapshot Stamp.rest
      rw [hsplit]
      refine ⟨?_, Stamp.strptime_stampText hrange⟩
      dsimp only
      rw [String.ofList_toList, hgroup, hstamp]
      rfl
    · cases hstamp
  · cases h

/-! ## The times -/

/-- Between 1971 and 2100. -/
def InEra (clock : ℚ) : Prop := 31536000 ≤ clock ∧ clock ≤ 4102444800

/-- Every second of the era is a float. -/
theorem seconds_le_maxDouble : (4102444800 : Int) ≤ Json.maxDouble := by
  have hsplit : (2 : Int) ^ 1024 = 2 ^ 54 * 2 ^ 970 := by rw [← pow_add]
  have hpos : (1 : Int) ≤ 2 ^ 970 := one_le_pow₀ (by decide)
  unfold Json.maxDouble
  rw [hsplit]
  generalize (2 : Int) ^ 970 = x at hpos
  omega

theorem truncate_eq {clock : ℚ} (h : InEra clock) : truncate clock = ⌊clock⌋ := by
  unfold truncate
  rw [if_neg (by linarith [h.1])]

/-- What the summary makes of a cache. -/
def Probed.evidence (p : Probed) : Summary.Evidence :=
  { recoveryPointEpoch := p.recoveryPointEpoch, lastReadbackEpoch := p.lastReadbackEpoch, cachedAgeSeconds := p.age,
    currentPointAge := p.age, evidenceAge := 0, snapshot := p.snapshot, provenance := "NATIVE_HEALTHY_ONLY_CACHE" }

theorem asOf_evidence (p : Probed) : p.evidence.asOf = p.now := by
  show p.recoveryPointEpoch + (p.now - p.recoveryPointEpoch) = p.now
  omega

theorem now_of_cached {c : Config} {clock : ℚ} {p : Probed} (h : p.Cached c clock) (hera : InEra clock) :
    p.now = ⌊clock⌋ ∧ 31536000 ≤ p.now ∧ p.now ≤ 4102444800 ∧ (p.now : ℚ) ≤ clock := by
  have hnow := h.now.trans (truncate_eq hera)
  have hfloor : (⌊clock⌋ : ℚ) ≤ clock := Int.floor_le clock
  refine ⟨hnow, ?_, ?_, hnow ▸ hfloor⟩
  · rw [hnow]
    exact Int.le_floor.mpr (by exact_mod_cast hera.1)
  · rw [hnow]
    exact_mod_cast hfloor.trans hera.2

/-- **What was cached is sound evidence.** -/
theorem sound_of_cached {c : Config} {clock : ℚ} {p : Probed} (hid : c.hasBackupId = true) (hera : InEra clock)
    (h : p.Cached c clock) : p.evidence.Sound := by
  obtain ⟨-, hlow, hhigh, -⟩ := now_of_cached h hera
  have hage : p.now - p.recoveryPointEpoch < 600 := h.age
  have horder := h.order
  obtain ⟨hname, hparsed⟩ := snapshot_readable hid h.name
  refine ⟨?_, ⟨horder.1, ?_⟩, ?_, ?_, hname, hparsed⟩
  · show 0 < p.recoveryPointEpoch
    omega
  · rw [asOf_evidence]
    exact horder.2
  · have hreadback : p.lastReadbackEpoch ≤ 4102444800 := horder.2.trans hhigh
    show (p.lastReadbackEpoch : ℚ) ≤ 4102444800
    exact_mod_cast hreadback
  · have hyoung : p.now - p.recoveryPointEpoch ≤ 4102444800 := by omega
    show ((p.now - p.recoveryPointEpoch : Int) : ℚ) ≤ 4102444800
    exact_mod_cast hyoung

/-! ## Stored evidence -/

namespace Summary

/-- A cache that was accepted is the evidence, whatever the unit says. -/
theorem lastHealthyEvidence_current (e : Evidence) (native : Option Native) (now mono : ℚ) (safe : Bool) :
    (current e native now mono safe).lastHealthyEvidence = some e := by
  cases native with
  | none        => rfl
  | some native => simp only [current, apply_ite Database.lastHealthyEvidence, ite_self]

/-- The evidence of a summary is sound, whether it was of its cache or of an earlier summary. -/
theorem sound_of_databaseSummary {cache unit previous : Json} {now mono : ℚ} {safe : Bool} {e : Evidence}
    (h : (databaseSummary cache unit now mono safe previous).lastHealthyEvidence = some e) :
    e.Sound ∧ (e.asOf : ℚ) ≤ now := by
  unfold databaseSummary at h
  cases haccepted : cacheEvidence cache now with
  | ok found     =>
    rw [haccepted] at h
    dsimp only at h
    rw [lastHealthyEvidence_current] at h
    cases h
    exact sound_of_accepted haccepted
  | error _ =>
    rw [haccepted] at h
    dsimp only at h
    unfold historical at h
    split at h
    · cases h
    · split at h
      · cases h
      · next found hfound =>
        cases h
        obtain ⟨hsound, hnow⟩ := sound_of_accepted hfound
        exact ⟨⟨hsound.positive, hsound.order, hsound.readbackMax, hsound.ageMax, hsound.name, hsound.parsed⟩, hnow⟩

/-- **Evidence outlives its cache**: the next summary keeps what was stored. -/
theorem databaseSummary_of_stored {cache unit previous : Json} {now mono : ℚ} {safe : Bool} {e : Evidence}
    (hsound : e.Sound) (hnow : (e.asOf : ℚ) ≤ now) (hunreadable : ∀ found, cacheEvidence cache now ≠ .ok found)
    (hstored : oldEvidence previous = e.json) :
    (databaseSummary cache unit now mono safe (oldEvidence previous)).lastHealthyEvidence =
      some (e.seen now "PREVIOUS_SUMMARY_HEALTHY_CACHE") := by
  unfold databaseSummary
  rw [hstored, historical_json hsound hnow]
  split
  · next found hfound => exact absurd hfound (hunreadable found)
  · rfl

end Summary

/-! ## The two readers -/

def smallConfig : Config := ⟨"one", "platform", "7", "platform-db"⟩

def smallEpoch : Int := 1767225600

def smallManifest (proofs : Bool) : List (String × Json) :=
  [("backup-type", .str "host"), ("backup-id", .str (groupId smallConfig proofs)), ("backup-time", .int smallEpoch),
    ("signature", .str (String.ofList (List.replicate 64 'a'))),
    ("files", .list [.dict [("filename", .str ((if proofs then PROOF_ARCHIVE else ARCHIVE) ++ ".didx")),
      ("crypt-mode", .str "encrypt"), ("csum", .str (String.ofList (List.replicate 64 'b')))]])]

def smallReceipt (digest : String) : Json :=
  .dict [("instance_id", .str "one"), ("database", .str "platform"), ("system_identifier", .str "7"),
    ("status", .str "VERIFIED"), ("recovery_point_epoch", .int smallEpoch),
    ("snapshot", .str "host/platform-db/2026-01-01T00:00:00Z"),
    ("receipt_snapshot", .str "host/platform-db-verified/2026-01-01T00:00:00Z"),
    ("verified_epoch", .int (smallEpoch + 30)), ("manifest_fingerprint", .str digest),
    ("payload_sha256", .dict (payloadNames.map fun name => (name, .str (String.ofList (List.replicate 64 'c')))))]

def smallRemote (digest : String) : Remote where
  inventory proofs := .ok (.list [.dict [("backup-type", .str "host"), ("backup-id", .str (groupId smallConfig proofs)),
    ("backup-time", .int smallEpoch), ("files", .list [.str (if proofs then PROOF_ARCHIVE else ARCHIVE)])]])
  index snapshot := .ok (.dict (smallManifest (snapshot = "host/platform-db-verified/2026-01-01T00:00:00Z")))
  receipt _ := .ok (smallReceipt digest)

theorem isSha256_jsonDigest (T : FloatText) (value : Json) : isSha256 (.str (jsonDigest T value)) = true := by
  obtain ⟨hlength, hall⟩ := Sha256.hexdigest_form
    (String.ofList ((JsonText.text T value.sorted).flatMap asciiEscape)).toUTF8
  unfold isSha256 Text.fullmatch jsonDigest
  simp only [Json.asStr?, Option.any_some, hlength, hall]
  rfl

theorem snapshotName_small (proofs : Bool) :
    snapshotName smallConfig smallEpoch proofs = .ok ("host/" ++ groupId smallConfig proofs ++ "/2026-01-01T00:00:00Z") := by
  cases proofs <;> decide +kernel

theorem validateReceipt_small {digest : String} (h : isSha256 (.str digest) = true) :
    validateReceipt smallConfig (smallReceipt digest) smallEpoch = .ok () := by
  have hdigest : isSha256 ((smallReceipt digest).getOrNull "manifest_fingerprint") = true := h
  unfold validateReceipt
  simp only [bind_eq_ok, snapshotName_small, refuseIf_eq_ok, hdigest]
  exact ⟨(), rfl, _, rfl, (), rfl, _, rfl, rfl⟩

/-- The point is 99 seconds old. -/
theorem freshness_small : ∃ digest report cache,
    freshness zeroText smallConfig (smallRemote digest) (1767225699 + 1 / 2) = (report, some cache) := by
  obtain ⟨digest, hindex, hsha⟩ : ∃ digest, manifestFingerprint zeroText smallConfig (.dict (smallManifest false))
      smallEpoch false = .ok digest ∧ isSha256 (.str digest) = true := ⟨_, rfl, isSha256_jsonDigest zeroText _⟩
  have hreceipt := validateReceipt_small hsha
  have hcheck : check zeroText smallConfig (smallRemote digest) (1767225699 + 1 / 2) =
      .ok (.probed ⟨smallEpoch, smallEpoch + 30, "host/platform-db/2026-01-01T00:00:00Z", 1767225699⟩) := by
    have hclock : truncate (1767225699 + 1 / 2) = 1767225699 := by decide +kernel
    have hsame : ((smallReceipt digest).item "manifest_fingerprint" : Except BackupExn Json) = .ok (.str digest) := rfl
    unfold check
    simp only [bind_eq_ok]
    refine ⟨_, rfl, [smallEpoch], rfl, _, rfl, [smallEpoch], rfl, ?_⟩
    dsimp only
    rw [if_neg (by decide)]
    simp only [bind_eq_ok]
    refine ⟨_, snapshotName_small true, _, rfl, _, rfl, _, rfl, (), hreceipt, _, rfl, _, rfl, _, rfl, digest, hindex, _, rfl,
      _, rfl, ?_⟩
    rw [hclock, if_neg (by decide)]
    simp only [bind_eq_ok]
    refine ⟨_, hsame, ?_⟩
    rw [if_neg (by simp [Json.isStr])]
    rfl
  refine ⟨digest, ?_⟩
  unfold freshness
  rw [hcheck]
  exact ⟨_, _, rfl⟩

end Backup
end PickleInfra
