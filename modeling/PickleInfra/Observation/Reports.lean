import PickleInfra.Observation.Outbox

/-!
# `Observation.Reports` — the runs of `report`

One statement for every part of `report`: the moves it makes, and how far the state in memory is ahead of the file
where the part ends. `makes_report` puts them together.
-/

namespace PickleInfra
namespace Observation

open Python Metrics Durable
open Relation (ReflTransGen)

variable {M : Machine} {c : ReportConfig} {w : Place Outside Reply}

/-! ## Exceptions as values -/

section Captured

variable {α : Type} {N : Place Outside Reply → Place Outside Reply → Prop} {ok : α → Place Outside Reply → Prop}
  {err : Failure → Place Outside Reply → Prop}

/-- What goes on after a part, from where it returned or from where it raised. -/
theorem captured_bind {β : Type} {x : Reporting α} {f : Except Failure α → Reporting β} {caught : Failure → Bool}
    {ok' : β → Place Outside Reply → Prop} {err' : Failure → Place Outside Reply → Prop} (hx : Makes N x w ok err)
    (hother : ∀ e w₁, err e w₁ → err' e w₁) (hok : ∀ a w₁, ok a w₁ → Makes N (f (.ok a)) w₁ ok' err')
    (herr : ∀ e w₁, err e w₁ → Makes N (f (.error e)) w₁ ok' err') :
    Makes N (captured caught x >>= f) w ok' err' := by
  have hcaptured : Makes N (captured caught x) w (Outcome ok err) err' := by
    have hvalue : Makes N (x >>= fun a => pure (.ok a)) w (Outcome ok err) err := hx.bind fun a w₁ h => .pure h
    exact Makes.rescue hvalue (fun e w₁ _ h => .pure h) fun e w₁ _ h => hother e w₁ h
  refine hcaptured.bind fun r w₁ h => ?_
  cases r with
  | ok a => exact hok a w₁ h
  | error e => exact herr e w₁ h

/-- A question that says nothing about the outbox. -/
theorem makes_askOutside {sourceId : String} {q : Outside} {read : Reply → α} {p : Files → Prop}
    (hanswered : ∀ a, eventOf M.text sourceId (.answered (.outside q) a) = none)
    (hlost : eventOf M.text sourceId (.lost (.outside q)) = none) (hw : Shows p w) :
    Makes (Move M sourceId) (askOutside q read) w (fun _ => Shows p) fun _ => Shows p := by
  refine makes_ask (move_push hlost) (fun a => move_push (hanswered a)) fun a => ?_
  cases a.reply.failure with
  | none => exact hw
  | some e => exact hw

end Captured

/-! ## Saving -/

/-- The state is saved, and what does not depend on it stays. -/
theorem makes_saveState {s : ReporterState} {p : Files → Prop}
    (hp : ∀ files payload, p files → p (files.set "state.json" payload))
    (hw : Shows (fun files => Ahead M.text s files ∧ p files) w) :
    Makes (Move M c.sourceId) (saveState M c s) w (fun _ => Shows fun files => Saved M.text s files ∧ p files)
      fun _ => Shows fun files => Ahead M.text s files ∧ p files := by
  refine (makes_saveControl (Q := Shows fun files => Saved M.text s files ∧ p files) (fun _ _ => move_quiet)
    (stable_shows _) (stable_shows _) (by decide) ?_ hw).mono (fun _ _ h => h) fun e w' h => ?_
  · intro w' payload d hshows hpayload hsize hsound hview
    have hsaved := saved_set hshows.2.1.ok hpayload w'.disk.view
    refine ⟨move_wrote hsound (fun _ => hview ▸ readable_set hshows.2.1.ok hpayload hsize _)
      (fun hfit => hview ▸ hfit.set_control (by decide) payload) ?_, hsound, ?_⟩
    · rw [hview]
      exact change_state hshows.2.1 hsaved
    · rw [World.wrote_disk, hview]
      exact ⟨hsaved, hp _ _ hshows.2.2⟩
  · rcases h with h | h
    · exact h
    · exact h.mono fun files hf => ⟨hf.1.ahead, hf.2⟩

/-- The result is saved. -/
theorem makes_saveStatus {result : Json} {s : ReporterState} (hw : Shows (Ahead M.text s) w) :
    Makes (Move M c.sourceId) (perform fun dir => saveControl M.text c.session dir "status.json" result) w
      (fun _ => Shows (Ahead M.text s)) fun _ => Shows (Ahead M.text s) := by
  refine (makes_saveControl (fun _ _ => move_quiet) (stable_shows _) (stable_shows _) (by decide) ?_ hw).mono
    (fun _ _ h => h) fun e w' h => h.elim id id
  intro w' payload d hshows _ _ hsound hview
  have hfile : d.view.get? "state.json" = w'.disk.view.get? "state.json" := by
    rw [hview]
    exact Dict.get?_set_ne _ _ (by decide)
  refine ⟨move_wrote hsound (readable_congr hfile) (fun hfit => hview ▸ hfit.set_control (by decide) payload) ?_,
    hsound, hshows.2.congr hfile⟩
  rw [hview]
  exact change_status payload

/-! ## Delivering -/

/-- A later state is as far ahead. -/
theorem Ahead.later {T : FloatText} {s s' : ReporterState} {files : Files} (h : Ahead T s files) (hok : s'.Ok)
    (hcheckpoints : ∀ epoch p, s.checkpoints.get? epoch = some p →
      ∃ p', s'.checkpoints.get? epoch = some p' ∧ p.sequence ≤ p'.sequence)
    (hblocked : ∀ key, (s.blocked.get? key).isSome → (s'.blocked.get? key).isSome) : Ahead T s' files where
  ok := hok
  checkpoints epoch n hn := by
    obtain ⟨p, hp, hle⟩ := h.checkpoints epoch n hn
    obtain ⟨p', hp', hle'⟩ := hcheckpoints epoch p hp
    exact ⟨p', hp', Nat.le_trans hle hle'⟩
  blocked k hk := hblocked k.text (h.blocked k hk)

/-- The checkpoint that an acknowledgement leaves is at the record, or behind it. -/
theorem checkpointed_ok {s s' : ReporterState} {record : Record} {receivedAt : String} {k : Key}
    (hof : record.Of M.text k) (hs : s.Ok) {ms : Int}
    (hobserved : instantMillis (record.document.getOrNull "observedAt") = .ok ms)
    (hreceived : (Calendar.ackMillis receivedAt).isSome) (h : checkpointed M s record receivedAt = .ok s') : s'.Ok ∧
    (∀ epoch p, s.checkpoints.get? epoch = some p →
      ∃ p', s'.checkpoints.get? epoch = some p' ∧ p.sequence ≤ p'.sequence) ∧
    s'.blocked = s.blocked ∧ ∃ p, s'.checkpoints.get? k.epoch = some p ∧ k.sequence ≤ p.sequence := by
  unfold checkpointed at h
  rw [hof.epoch, hof.sequence] at h
  obtain ⟨_, hroom, h⟩ := bind_eq_ok.mp h
  rw [raiseIf_eq_ok] at hroom
  split at h
  · next hprevious =>
    obtain ⟨_, -, h⟩ := bind_eq_ok.mp h
    obtain ⟨payload, -, h⟩ := bind_eq_ok.mp h
    cases h
    have hp : Checkpoint.Ok k.epoch ⟨(k.sequence : Int).toNat, record.sha256, Sha256.hexdigest payload, receivedAt,
        (record.document.getOrNull "observedAt").asStr?.getD ""⟩ := by
      refine ⟨k.epoch_uuid, ?_, hof.sha256 ▸ isSha256_hexdigest _, isSha256_hexdigest _, hreceived, ?_⟩
      · rw [Int.toNat_natCast]
        exact k.sequence_le
      · obtain ⟨text, heq, hms⟩ := instantMillis_eq_ok.mp hobserved
        rw [heq]
        show (Calendar.instantMillis text).isSome
        rw [hms]
        rfl
    refine ⟨hs.checkpoint (fun hnone => ?_) hp, fun epoch p hp => ?_, rfl,
      ⟨_, (Dict.get?_set _ _ _ _).trans (if_pos rfl), ?_⟩⟩
    · rw [hnone] at hroom
      exact Nat.lt_of_not_le (of_decide_eq_false hroom)
    · by_cases hepoch : k.epoch = epoch
      · subst hepoch
        refine ⟨_, (Dict.get?_set _ _ _ _).trans (if_pos rfl), ?_⟩
        rw [hp] at hprevious
        have hle : (p.sequence : Int) ≤ k.sequence := of_decide_eq_true hprevious
        show p.sequence ≤ (k.sequence : Int).toNat
        omega
      · exact ⟨p, (Dict.get?_set_ne _ _ hepoch).trans hp, Nat.le_refl _⟩
    · show k.sequence ≤ (k.sequence : Int).toNat
      omega
  · next hprevious =>
    cases h
    refine ⟨hs, fun epoch p hp => ⟨p, hp, Nat.le_refl _⟩, rfl, ?_⟩
    cases hp : s.checkpoints.get? k.epoch with
    | none =>
        rw [hp] at hprevious
        exact absurd rfl hprevious
    | some p =>
        rw [hp] at hprevious
        have hlt : ¬ (p.sequence : Int) ≤ k.sequence := fun hle => hprevious (decide_eq_true hle)
        exact ⟨p, rfl, by omega⟩

theorem keyText_of {T : FloatText} {record : Record} {k : Key} (hof : record.Of T k) : keyText record = k.text := by
  unfold keyText Key.text
  rw [hof.epoch, hof.sequence]

theorem verdict_congr {response : Json} {sourceId : String} {a b : Record} (hepoch : a.epoch = b.epoch)
    (hsequence : a.sequence = b.sequence) (hsha256 : a.sha256 = b.sha256) :
    verdict response a sourceId = verdict response b sourceId := by
  unfold verdict verifyAck
  rw [hepoch, hsequence, hsha256]

/-- What the server acknowledged was received at a time. -/
theorem received_of_verdict {response : Json} {sourceId receivedAt : String} {record : Record}
    (h : verdict response record sourceId = .acknowledged receivedAt) : (Calendar.ackMillis receivedAt).isSome := by
  unfold verdict at h
  dsimp only at h
  split at h
  · split at h
    · next text hack =>
      cases h
      obtain ⟨_, -, hack⟩ := bind_eq_ok.mp hack
      obtain ⟨_, -, hack⟩ := bind_eq_ok.mp hack
      exact (ackInstant_eq_ok.mp hack).2
    · cases h
  · split at h
    · cases h
    · split at h <;> cases h

/-- What the server refused for good has one of two reasons. -/
theorem reason_of_verdict {response : Json} {sourceId : String} {record : Record} {reason : ObservationReason}
    (h : verdict response record sourceId = .quarantined reason) :
    reason.text ∈ ["CONTENT_CONFLICT", "REPLAY_REJECTED"] := by
  unfold verdict at h
  dsimp only at h
  split at h
  · split at h <;> cases h
  · split at h
    · cases h
      exact List.mem_cons_self
    · split at h
      · cases h
        exact List.mem_cons_of_mem _ List.mem_cons_self
      · cases h

theorem observed_of_sample {reporter : Bool} {v r : Json} (h : validateSample M reporter v = .ok r) :
    ∃ ms, instantMillis (v.getOrNull "observedAt") = .ok ms := by
  unfold validateSample at h
  obtain ⟨_, -, h⟩ := bind_eq_ok.mp h
  obtain ⟨_, -, h⟩ := bind_eq_ok.mp h
  obtain ⟨_, -, h⟩ := bind_eq_ok.mp h
  obtain ⟨_, -, h⟩ := bind_eq_ok.mp h
  obtain ⟨ms, hms, -⟩ := bind_eq_ok.mp h
  exact ⟨ms, hms⟩

/-- A record that passed the checks says its key. -/
theorem keyOf_checked {record : Record} {k : Key} (hof : record.Of M.text k)
    (h : checkRecord M c record = .ok ()) : keyOf M.text record.payload = some k := by
  obtain ⟨_, -, h⟩ := bind_eq_ok.mp h
  obtain ⟨payload, -, h⟩ := bind_eq_ok.mp h
  rw [raiseIf_eq_ok, Bool.not_eq_false', Bool.and_eq_true, Bool.and_eq_true, Bool.and_eq_true] at h
  obtain ⟨⟨⟨-, hepoch⟩, hsequence⟩, -⟩ := h
  have hepoch' : record.document.getOrNull "epoch" = .str k.epoch := by
    rw [hof.epoch] at hepoch
    cases hv : record.document.getOrNull "epoch" with
    | str s =>
        rw [hv] at hepoch
        rw [of_decide_eq_true hepoch]
    | null | bool | int | float | list | dict =>
        rw [hv] at hepoch
        cases hepoch
  have hsequence' : record.document.getOrNull "sequence" = .int k.sequence := by
    rw [decide_eq_true_eq, hof.sequence] at hsequence
    cases hv : record.document.getOrNull "sequence" with
    | int n =>
        rw [hv] at hsequence
        rw [Option.some.inj hsequence]
    | null | bool | str | float | list | dict =>
        rw [hv] at hsequence
        cases hsequence
  unfold keyOf
  rw [hof.document]
  show Key.of? (record.document.getOrNull "epoch") (record.document.getOrNull "sequence") = some k
  rw [hepoch', hsequence', Key.of?_self]

section Deliver

variable {t : Tally} {record : Record} {rest : List Record} {k : Key}

/-- A record whose bytes were acknowledged is removed. -/
theorem makes_ack {s : ReporterState} {a : Answer Reply} (hof : record.Of M.text k)
    (hkey : keyOf M.text record.payload = some k)
    (hcheckpoint : ∃ p, s.checkpoints.get? k.epoch = some p ∧ k.sequence ≤ p.sequence)
    (hblocked : s.blocked.get? k.text = none) (hacknowledged : acknowledges c.sourceId k record.payload a = true)
    (hw : Shows (fun files => Saved M.text s files ∧ Holding M.text (record :: rest) files) w ∧
      .answered (.outside (.send record.payload)) a ∈ w.hist) :
    Makes (Move M c.sourceId) (perform fun dir => ack c.session dir record) w
      (fun _ => Shows fun files => Saved M.text s files ∧ Holding M.text rest files)
      fun _ => Shows fun files => Saved M.text s files ∧ Holding M.text rest files := by
  have hop : ∀ w' : Place Outside Reply, ∀ r effect, ack c.session (shown w'.disk.view) record = .ok (r, effect) →
      effect = .nothing ∨ effect = .unlink k.name := by
    intro w' r effect h
    obtain ⟨-, k', hk', -, h⟩ := ack_eq_ok.mp h
    rw [hof.epoch, hof.sequence, Key.of?_self] at hk'
    obtain rfl := Option.some.inj hk'
    rcases h with ⟨-, -, rfl⟩ | ⟨_, -, -, -, -, rfl⟩
    · exact .inl rfl
    · exact .inr rfl
  refine (makes_perform (R := fun _ => Shows fun files => Saved M.text s files ∧ Holding M.text rest files)
    (fun _ _ => move_quiet) ((stable_shows _).past _) (fun _ => stable_shows _) (fun d _ => seen_ack _) ?_ ?_ ?_
    hw).mono (fun _ _ h => h) ?_
  · intro w' r effect _ h
    rcases hop w' r effect h with rfl | rfl <;> exact trivial
  · exact fun w' r h _ => h.1.mono fun files hf => ⟨hf.1, hf.2.tail⟩
  · intro w' r effect d hshows h hsound hview
    obtain ⟨hshows, hpast⟩ := hshows
    rcases hop w' r effect h with rfl | rfl
    · have hview' : d.view = w'.disk.view := hview
      exact ⟨move_quiet (.wrote hsound hview'), hsound, by
        rw [World.wrote_disk, hview']
        exact ⟨hshows.2.1, hshows.2.2.tail⟩⟩
    · have hview' : d.view = w'.disk.view.erase k.name := hview
      obtain ⟨k', hof', hstored⟩ := hshows.2.2.held record List.mem_cons_self
      rw [Key.name_inj (hof'.name.symm.trans hof.name)] at hstored
      obtain ⟨p, hp, hle⟩ := hcheckpoint
      have hsent : .sent k record.payload true ∈ (outboxWorld M.text c.sourceId w').past := by
        refine List.mem_filterMap.mpr ⟨_, hpast, ?_⟩
        show (keyOf M.text record.payload).map _ = _
        rw [hkey, Option.map_some, hacknowledged]
      have hmarked : markOf (savedJson M.text w'.disk.view) k.epoch = some p.sequence := by
        rw [hshows.2.1.checkpoints, hp]
        rfl
      have hallowed : isBlocked (savedJson M.text w'.disk.view) k ≠ true := by
        rw [hshows.2.1.blocked, hblocked]
        exact Bool.false_ne_true
      have hfile : d.view.get? "state.json" = w'.disk.view.get? "state.json" := by
        rw [hview']
        exact file_erase_record _ k
      refine ⟨move_wrote hsound (readable_congr hfile) (fun hfit => hview' ▸ hfit.erase k.name) ?_, hsound, ?_⟩
      · rw [hview']
        exact change_ack hstored hsent hmarked hle hallowed
      · rw [World.wrote_disk, hview', ← hof.name]
        refine ⟨⟨hshows.2.1.ok, ?_, ?_⟩, hshows.2.2.erase⟩
        · rw [hof.name, savedJson_congr (file_erase_record _ k)]
          exact hshows.2.1.checkpoints
        · rw [hof.name, savedJson_congr (file_erase_record _ k)]
          exact hshows.2.1.blocked
  · rintro e w' (h | ⟨_, h⟩)
    · exact h.1.mono fun files hf => ⟨hf.1, hf.2.tail⟩
    · exact h

/-- The end of an attempt: the state is ahead of the file, and the other records are held. -/
abbrev Attempted (M : Machine) (rest : List Record) (t : Tally) : Place Outside Reply → Prop :=
  Shows fun files => Ahead M.text t.state files ∧ Holding M.text rest files

theorem makes_quarantine (hof : record.Of M.text k) {reason : ObservationReason}
    (hreason : reason.text ∈ ["CONTENT_CONFLICT", "REPLAY_REJECTED"]) (hw : Attempted M (record :: rest) t w) :
    Makes (Move M c.sourceId) (quarantine M c t record reason) w (Attempted M rest) fun _ _ => True := by
  unfold quarantine
  split
  · exact .pure (hw.mono fun files hf => ⟨hf.1, hf.2.tail⟩)
  · next hroom =>
    have hblocked : Shows (fun files => Ahead M.text
        ⟨t.state.checkpoints, t.state.blocked.set (keyText record) ⟨record.sha256, reason.text⟩⟩ files
          ∧ Holding M.text rest files) w := by
      have hok : (Blocked.mk record.sha256 reason.text).Ok (keyText record) := by
        rw [keyText_of hof, hof.sha256]
        exact ok_blocked k _ hreason
      refine hw.mono fun files hf => ⟨hf.1.later (hf.1.ok.block (Nat.lt_of_not_le hroom) hok)
        (fun epoch p hp => ⟨p, hp, Nat.le_refl _⟩) fun key hkey => ?_, hf.2.tail⟩
      show (Dict.get? (t.state.blocked.set _ _) key).isSome
      rw [Dict.get?_set]
      split
      · rfl
      · exact hkey
    refine captured_bind (makes_saveState (fun _ payload h => h.set_control (by decide) payload) hblocked)
      (fun _ _ _ => trivial) (fun _ w₁ h₁ => ?_) fun e w₁ h₁ => .pure h₁
    exact .pure (h₁.mono fun files hf => ⟨hf.1.ahead, hf.2⟩)

theorem makes_settle {receivedAt : String} {a : Answer Reply} (hof : record.Of M.text k)
    (hchecked : checkRecord M c record = .ok ()) (hreceived : (Calendar.ackMillis receivedAt).isSome)
    (hblocked : t.state.blocked.get? k.text = none)
    (hacknowledged : acknowledges c.sourceId k record.payload a = true) (hw : Attempted M (record :: rest) t w)
    (hpast : .answered (.outside (.send record.payload)) a ∈ w.hist) :
    Makes (Move M c.sourceId) (settle M c t record receivedAt) w (Attempted M rest) fun _ _ => True := by
  unfold settle
  cases hstate : checkpointed M t.state record receivedAt with
  | error e => exact .pure (hw.mono fun files hf => ⟨hf.1, hf.2.tail⟩)
  | ok state =>
      obtain ⟨_, hvalid, -⟩ := bind_eq_ok.mp hchecked
      obtain ⟨ms, hms⟩ := observed_of_sample hvalid
      obtain ⟨hok, hlater, hsame, hcheckpoint⟩ := checkpointed_ok hof hw.2.1.ok hms hreceived hstate
      have hahead : Shows (fun files => Ahead M.text state files ∧ Holding M.text (record :: rest) files) w :=
        hw.mono fun files hf => ⟨hf.1.later hok hlater fun key hkey => by rwa [hsame], hf.2⟩
      have hblocked' : state.blocked.get? k.text = none := by rw [hsame, hblocked]
      have hsaved :=
        (makes_saveState (c := c) (fun files payload h => h.set_control (by decide) payload) hahead).past hpast
      refine captured_bind hsaved (fun _ _ _ => trivial) (fun _ w₁ h₁ => ?_)
        fun e w₁ h₁ => .pure (h₁.1.mono fun files hf => ⟨hf.1, hf.2.tail⟩)
      exact captured_bind (makes_ack hof (keyOf_checked hof hchecked) hcheckpoint hblocked' hacknowledged h₁)
        (fun _ _ _ => trivial) (fun _ w₂ h₂ => .pure (h₂.mono fun files hf => ⟨hf.1.ahead, hf.2⟩))
        fun e w₂ h₂ => .pure (h₂.mono fun files hf => ⟨hf.1.ahead, hf.2⟩)

/-- The record is sent as it is held. -/
theorem makes_deliver (hof : record.Of M.text k) (hchecked : checkRecord M c record = .ok ())
    (hblocked : t.state.blocked.get? k.text = none) (hw : Attempted M (record :: rest) t w) :
    Makes (Move M c.sourceId) (deliver M c t record) w (Attempted M rest) fun _ _ => True := by
  have hkey := keyOf_checked hof hchecked
  obtain ⟨k', hof', hstored⟩ := hw.2.2.held record List.mem_cons_self
  rw [Key.name_inj (hof'.name.symm.trans hof.name)] at hstored
  have hallowed : isBlocked (savedJson M.text w.disk.view) k ≠ true := by
    intro hk
    have hsome := hw.2.1.blocked k hk
    rw [hblocked] at hsome
    cases hsome
  have hsent : ∀ e, ∀ acknowledged : Key → Bool, eventOf M.text c.sourceId e = (keyOf M.text record.payload).map
      (fun k => .sent k record.payload (acknowledged k)) → Move M c.sourceId w (w.push e) := by
    intro e acknowledged he
    rw [hkey] at he
    exact steps_sent he hstored hallowed
  -- an answer is what the server made of the bytes, or an exception
  have hanswer : Makes (Move M c.sourceId) (askOutside (.send record.payload) Reply.response) w
      (fun response w₁ => Attempted M (record :: rest) t w₁ ∧
        ∃ a, a.reply.failure = none ∧ a.reply.response = response ∧
        .answered (.outside (.send record.payload)) a ∈ w₁.hist) fun _ => Attempted M (record :: rest) t := by
    refine makes_ask (hsent _ (fun _ => false) rfl)
      (fun a => hsent _ (fun k => acknowledges c.sourceId k record.payload a) rfl) fun a => ?_
    cases hfailure : a.reply.failure with
    | none => exact ⟨hw, a, hfailure, rfl, List.mem_cons_self⟩
    | some e => exact hw
  unfold deliver
  refine captured_bind hanswer (fun _ _ _ => trivial) (fun response w₁ h₁ => ?_)
    fun e w₁ h₁ => .pure (h₁.mono fun files hf => ⟨hf.1, hf.2.tail⟩)
  obtain ⟨hw₁, a, hfailure, hresponse, hpast⟩ := h₁
  dsimp only
  split
  · exact .pure (hw₁.mono fun files hf => ⟨hf.1, hf.2.tail⟩)
  · next reason hverdict =>
    exact makes_quarantine (t := { t with attempts := t.attempts + 1 }) hof (reason_of_verdict hverdict) hw₁
  · next receivedAt hverdict =>
    refine makes_settle (t := { t with attempts := t.attempts + 1 }) hof hchecked (received_of_verdict hverdict)
      hblocked ?_ hw₁ hpast
    unfold acknowledges
    rw [hfailure, hresponse, ← verdict_congr hof.epoch hof.sequence hof.sha256, hverdict]
    rfl

end Deliver

/-! ## Draining -/

theorem makes_deliverAll {t : Tally} {records : List Record} (hw : Attempted M records t w) :
    Makes (Move M c.sourceId) (deliverAll M c t records) w
      (fun t' => Shows (Ahead M.text t'.state)) fun _ _ => True := by
  induction records generalizing t w with
  | nil => exact .pure (hw.mono fun files hf => hf.1)
  | cons record rest ih =>
      obtain ⟨k, hof, -⟩ := hw.2.2.held record List.mem_cons_self
      unfold deliverAll
      split
      · exact .pure (hw.mono fun files hf => hf.1)
      · have hchecked : Makes (Move M c.sourceId) (lifted (checkRecord M c record).lift) w
            (fun _ w₁ => Attempted M (record :: rest) t w₁ ∧ checkRecord M c record = .ok ()) fun _ _ => True := by
          exact makes_lifted (fun _ hu => ⟨hw, Observed.lift_eq_ok.mp hu⟩) fun _ => trivial
        refine hchecked.bind fun _ w₁ h₁ => ?_
        obtain ⟨hw₁, hcheck⟩ := h₁
        rw [keyText_of hof]
        cases hblocked : t.state.blocked.get? k.text with
        | some b =>
            dsimp only
            split
            · exact .throw trivial
            · exact ih (hw₁.mono fun files hf => ⟨hf.1, hf.2.tail⟩)
        | none =>
            exact (makes_deliver hof hcheck hblocked hw₁).bind fun t' w₂ hw₂ => ih hw₂

theorem makes_drain {t : Tally} (hw : Shows (Ahead M.text t.state) w) :
    Makes (Move M c.sourceId) (drain M c t) w (fun t' => Shows (Ahead M.text t'.state)) fun _ _ => True := by
  refine ((makes_look (fun _ _ => move_quiet) (stable_shows _) (fun d hd => seen_pending hd _ _) hw).mono
    (fun _ _ h => h) fun _ _ _ => trivial).bind fun records w₁ h₁ => ?_
  exact makes_deliverAll ⟨h₁.1.1, h₁.1.2, holding_pending (view_tidy h₁.1.1) h₁.2⟩

/-! ## Importing -/

theorem makes_readSource {p : Files → Prop} (hw : Shows p w) :
    Makes (Move M c.sourceId) (readSource M c) w (fun latest w' => Shows p w' ∧ Fetched M c.sourceId latest)
      fun _ => Shows p := by
  refine (makes_askOutside (fun _ => rfl) rfl hw).bind fun payload w₁ hw₁ => ?_
  cases payload with
  | none => exact .throw hw₁
  | some payload =>
      dsimp only
      split
      · exact .throw hw₁
      · have hcandidate : Makes (Move M c.sourceId) (lifted (decoded M.text payload).lift) w₁
            (fun candidate w' => Shows p w' ∧ JsonText.Valid M.text candidate) fun _ => Shows p :=
          makes_lifted (fun _ h => ⟨hw₁, valid_of_decoded (Stored.lift_eq_ok.mp h)⟩) fun _ => hw₁
        refine hcandidate.bind fun candidate w₂ h₂ => ?_
        have hsample : Makes (Move M c.sourceId) (lifted (validateSample M false candidate).lift) w₂
            (fun _ w' => Shows p w' ∧ validateSample M false candidate = .ok candidate) fun _ => Shows p := by
          refine makes_lifted (fun v h => ⟨h₂.1, ?_⟩) fun _ => h₂.1
          have hvalidated := Observed.lift_eq_ok.mp h
          rwa [(keys_of_sample hvalidated).1] at hvalidated
        refine hsample.bind fun _ w₃ h₃ => ?_
        split
        · next hsource => exact .pure ⟨h₃.1, h₂.2, h₃.2, hsource⟩
        · exact .throw h₃.1

/-- A new sample is above the checkpoint of its epoch. -/
theorem above_checkpoint {T : FloatText} {s : ReporterState} {files : Files} {epoch sequence : Json} {k : Key}
    (hk : Key.of? epoch sequence = some k) (hahead : Ahead T s files)
    (hnew : (epoch.asStr?.bind s.checkpoints.get?).filter (fun p => (sequence.asInt?).any (· ≤ p.sequence)) = none) :
    ∀ n, markOf (savedJson T files) k.epoch = some n → n < k.sequence := by
  intro n hn
  obtain ⟨p, hp, hle⟩ := hahead.checkpoints k.epoch n hn
  obtain ⟨rfl, rfl⟩ := Key.of?_eq_some.mp hk
  rw [Option.filter_eq_none_iff] at hnew
  have hlt := hnew p hp
  have hlt' : ¬ (k.sequence : Int) ≤ p.sequence := fun h => hlt (decide_eq_true h)
  omega

theorem makes_put {s : ReporterState} {epoch sequence request : Json}
    (hnew : (epoch.asStr?.bind s.checkpoints.get?).filter (fun p => (sequence.asInt?).any (· ≤ p.sequence)) = none)
    (hput : ∀ k payload, Key.of? epoch sequence = some k → encoded M.text request = .ok payload →
      Fit M c.sourceId k payload) (hw : Shows (Ahead M.text s) w) :
    Makes (Move M c.sourceId) (perform fun dir => put M.text c.session dir epoch sequence request) w
      (fun _ => Shows (Ahead M.text s)) fun _ => Shows (Ahead M.text s) := by
  refine (makes_perform (R := fun _ => Shows (Ahead M.text s)) (fun _ _ => move_quiet) (stable_shows _)
    (fun _ => stable_shows _) (fun d hd => seen_put hd _ _ _) ?_ (fun _ _ h _ => h) ?_ hw).mono (fun _ _ h => h)
    fun e w' h => h.elim id fun h => h.choose_spec
  · intro w' r effect hshows h
    obtain ⟨k, payload, -, -, -, ⟨-, rfl, -⟩ | ⟨-, rfl, -⟩⟩ := (put_eq_ok (view_tidy hshows.1)).mp h
    · exact trivial
    · exact .inr (.inr ⟨k, rfl⟩)
  · intro w' r effect d hshows h hsound hview
    obtain ⟨k, payload, hk, hpayload, -, ⟨-, rfl, -⟩ | ⟨-, rfl, hfree, -⟩⟩ := (put_eq_ok (view_tidy hshows.1)).mp h
    · have hview' : d.view = w'.disk.view := hview
      exact ⟨move_quiet (.wrote hsound hview'), hsound, by
        rw [World.wrote_disk, hview']
        exact hshows.2⟩
    · have hview' : d.view = w'.disk.view.set k.name payload := hview
      have hfile : d.view.get? "state.json" = w'.disk.view.get? "state.json" := by
        rw [hview']
        exact file_set_record _ k payload
      refine ⟨move_wrote hsound (readable_congr hfile)
        (fun hfit => hview' ▸ hfit.set_record (hput k payload hk hpayload)) ?_, hsound, hshows.2.congr hfile⟩
      rw [hview']
      exact change_put hfree (above_checkpoint hk hshows.2 hnew)

theorem makes_importLatest {now : Int} {s : ReporterState} {latest : Json} (hlatest : Fetched M c.sourceId latest)
    (hw : Shows (Ahead M.text s) w) :
    Makes (Move M c.sourceId) (importLatest M c now s latest) w
      (fun _ => Shows (Ahead M.text s)) fun _ => Shows (Ahead M.text s) := by
  refine (makes_lifted (fun _ _ => hw) fun _ => hw).bind fun core w₁ hw₁ => ?_
  dsimp only
  split
  · split
    · exact .throw hw₁
    · exact .pure hw₁
  · next hnew =>
    refine ((makes_look (fun _ _ => move_quiet) (stable_shows _) (fun d _ => seen_get _ _) hw₁).mono
      (fun _ _ h => h.1) fun _ _ h => h).bind fun existing w₂ hw₂ => ?_
    cases existing with
    | some existing =>
        dsimp only
        split
        · exact .pure hw₂
        · exact .throw hw₂
    | none =>
        have hrequest : Makes (Move M c.sourceId) (lifted (forReporter M latest now).lift) w₂
            (fun request w' => Shows (Ahead M.text s) w' ∧ forReporter M latest now = .ok request)
            fun _ => Shows (Ahead M.text s) :=
          makes_lifted (fun _ h => ⟨hw₂, Observed.lift_eq_ok.mp h⟩) fun _ => hw₂
        refine hrequest.bind fun request w₃ h₃ => ?_
        exact (makes_put hnew (fun k payload => fit_of_request hlatest h₃.2) h₃.1).bind fun _ w₄ hw₄ => .pure hw₄

theorem makes_acquire {now : Int} {t : Tally} (hw : Shows (Ahead M.text t.state) w) :
    Makes (Move M c.sourceId) (acquire M c now t) w
      (fun r => Shows (Ahead M.text r.1.state)) fun _ _ => True := by
  refine captured_bind (makes_readSource hw) (fun _ _ _ => trivial) (fun latest w₁ h₁ => ?_) fun e w₁ h₁ => .pure h₁
  exact captured_bind (makes_importLatest h₁.2 h₁.1) (fun _ _ _ => trivial) (fun isNew w₂ h₂ => .pure h₂)
    fun e w₂ h₂ => .pure h₂

/-! ## Runs -/

/-- The state that a run starts from is ahead of the file. -/
theorem makes_loadState (hw : w.disk.Sound) :
    Makes (Move M c.sourceId) (loadState M c) w (fun s => Shows (Ahead M.text s)) fun _ _ => True := by
  have hshows : Shows (fun _ => True) w := ⟨hw, trivial⟩
  refine ((makes_look (fun _ _ => move_quiet) (stable_shows _) (fun d _ => seen_loadControl _) hshows).mono
    (fun _ _ h => h) fun _ _ _ => trivial).bind fun found w₁ h₁ => ?_
  obtain ⟨hshows₁, hload⟩ := h₁
  obtain ⟨-, ⟨hnone, rfl⟩ | ⟨payload, v, hfile, -, hdecoded, rfl⟩⟩ := loadControl_eq_ok.mp hload
  · have hahead : Shows (Ahead M.text .new) w₁ := ⟨hshows₁.1, ahead_none ok_new hnone⟩
    refine ((makes_look (fun _ _ => move_quiet) (stable_shows _) (fun d hd => seen_stats hd) hahead).mono
      (fun _ _ h => h.1) fun _ _ _ => trivial).bind fun stats w₂ h₂ => ?_
    split
    · exact .throw trivial
    · refine ((makes_saveState (p := fun _ => True) (fun _ _ h => h) (h₂.mono fun _ h => ⟨h, trivial⟩)).mono
        (fun _ _ h => h) fun _ _ _ => trivial).bind fun _ w₃ h₃ => ?_
      exact .pure (h₃.mono fun _ h => h.1.ahead)
  · exact makes_lifted (fun s hs => ⟨hshows₁.1, ahead_of_reporterState hfile hdecoded (Observed.lift_eq_ok.mp hs)⟩)
      fun _ => trivial

theorem makes_report {now : Int} (hw : w.disk.Sound) :
    Makes (Move M c.sourceId) (report M c now) w (fun _ _ => True) fun _ _ => True := by
  have hshows : Shows (fun _ => True) w := ⟨hw, trivial⟩
  have htime : Makes (Move M c.sourceId) (lifted (instant now).lift) w (fun _ => Shows fun _ => True)
      fun _ _ => True := makes_lifted (fun _ _ => hshows) fun _ => trivial
  refine htime.bind fun _ w₁ h₁ => ?_
  refine ((makes_askOutside (fun _ => rfl) rfl h₁).mono (fun _ _ h => h) fun _ _ _ => trivial).bind fun _ w₂ h₂ => ?_
  refine ((makes_call (P := Shows fun _ => True) (fun _ _ => move_quiet) fun a => (stable_shows _).call h₂ _ a).mono
    (fun _ _ h => h) fun _ _ _ => trivial).bind fun _ w₃ h₃ => ?_
  refine (makes_loadState h₃.1).bind fun s w₄ h₄ => ?_
  refine (makes_drain h₄).bind fun t w₅ h₅ => ?_
  refine (makes_acquire h₅).bind fun r w₆ h₆ => ?_
  refine (makes_drain h₆).bind fun t' w₇ h₇ => ?_
  refine ((makes_look (fun _ _ => move_quiet) (stable_shows _) (fun d hd => seen_stats hd) h₇).mono
    (fun _ _ h => h.1) fun _ _ _ => trivial).bind fun found w₈ h₈ => ?_
  refine ((makes_saveStatus h₈).mono (fun _ _ h => h) fun _ _ _ => trivial).bind fun _ w₉ _ => ?_
  exact .pure trivial

end Observation
end PickleInfra
