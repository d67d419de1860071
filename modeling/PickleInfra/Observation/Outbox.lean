import PickleInfra.Durable.Outbox
import PickleInfra.Observation.Accepted

/-!
# `Observation.Outbox` — `report` follows the rules of an outbox

A store with its `state.json` is an outbox: it holds the records, the checkpoint of an epoch is the mark of its group,
and the blocked keys are quarantined. A run of `report`, wherever it is killed and whatever fails, makes steps of that
outbox (`report_refines`): a record is imported above the checkpoint, it is sent as it is held, and it is removed after
its own bytes were acknowledged and its epoch was checkpointed in the file.
-/

namespace PickleInfra
namespace Observation

open Python Metrics Durable
open Relation (ReflTransGen)

/-! ## The outbox of a store -/

section Abstraction

variable (T : FloatText) (sourceId : String)

def outboxOf (files : Files) : Outbox.State Key String ByteArray where
  held := stored files
  mark := markOf (savedJson T files)
  quarantined k := isBlocked (savedJson T files) k = true

/-- The key of the document that the bytes are. -/
def keyOf (body : ByteArray) : Option Key :=
  (decoded T body).toOption.bind fun v => Key.of? (v.getOrNull "epoch") (v.getOrNull "sequence")

/-- `drain` takes the answer as an acknowledgement of the bytes. -/
def acknowledges (k : Key) (body : ByteArray) (a : Answer Reply) : Bool :=
  a.reply.failure.isNone &&
    match verdict a.reply.response ⟨k.name, k.epoch, k.sequence, .null, body, Sha256.hexdigest body⟩ sourceId with
    | .acknowledged _ => true
    | _               => false

/-- What an event of the world is to the outbox. -/
def eventOf : Durable.Event Directory (Ask Outside) (Answer Reply) → Option (Outbox.Event Key String ByteArray)
  | .wrote d                          => some (.was (outboxOf T d.view))
  | .answered (.outside (.send body)) a =>
    (keyOf T body).map fun k => .sent k body (acknowledges sourceId k body a)
  | .lost (.outside (.send body))     => (keyOf T body).map fun k => .sent k body false
  | _                                 => none

/-- The outbox of a world, with its past. -/
def outboxWorld (w : Place Outside Reply) : Outbox.World Key String ByteArray :=
  ⟨outboxOf T w.disk.view, w.hist.filterMap (eventOf T sourceId)⟩

end Abstraction

/-- Every record is one that `drain` accepts. -/
def AllFit (M : Machine) (sourceId : String) (files : Files) : Prop :=
  ∀ k payload, stored files k = some payload → Fit M sourceId k payload

/-- A sound directory stays sound, its state readable and its records accepted, and its outbox makes steps. -/
structure Move (M : Machine) (sourceId : String) (w w' : Place Outside Reply) : Prop where
  sound : w.disk.Sound → w'.disk.Sound
  readable : Readable M.text sourceId w.disk.view → Readable M.text sourceId w'.disk.view
  fit : AllFit M sourceId w.disk.view → AllFit M sourceId w'.disk.view
  steps : ReflTransGen (Outbox.Step Key.epoch Key.sequence) (outboxWorld M.text sourceId w)
    (outboxWorld M.text sourceId w')

section Moves

variable {M : Machine} {sourceId : String} {w w' : Place Outside Reply}

theorem move_push {e : Durable.Event Directory (Ask Outside) (Answer Reply)} (h : eventOf M.text sourceId e = none) :
    Move M sourceId w (w.push e) where
  sound h := h
  readable h := h
  fit h := h
  steps := by
    have hsame : outboxWorld M.text sourceId (w.push e) = outboxWorld M.text sourceId w := by
      unfold outboxWorld
      rw [World.push_disk, World.push_hist, List.filterMap_cons_none h]
    rw [hsame]

theorem move_wrote {d : Directory} (hsound : d.Sound)
    (hreadable : Readable M.text sourceId w.disk.view → Readable M.text sourceId d.view)
    (hfit : AllFit M sourceId w.disk.view → AllFit M sourceId d.view)
    (h : Outbox.Change Key.epoch Key.sequence (outboxWorld M.text sourceId w).past (outboxOf M.text w.disk.view)
      (outboxOf M.text d.view)) : Move M sourceId w (w.wrote d) where
  sound _ := hsound
  readable := hreadable
  fit := hfit
  steps := .single (.change h)

theorem move_quiet (h : Quiet w w') : Move M sourceId w w' := by
  cases h with
  | answered q a hq =>
      refine move_push ?_
      cases q with
      | system | uuid => rfl
      | outside => cases hq
  | lost q hq =>
      refine move_push ?_
      cases q with
      | system | uuid => rfl
      | outside => cases hq
  | wrote sound view =>
      refine move_wrote sound (fun h => view ▸ h) (fun h => view ▸ h) ?_
      rw [view]
      exact .settle rfl (fun g n hn => ⟨n, hn, Nat.le_refl n⟩) fun k hk => hk

/-- A record that is held is sent under its key. -/
theorem steps_sent {k : Key} {body : ByteArray} {acknowledged : Bool}
    {e : Durable.Event Directory (Ask Outside) (Answer Reply)}
    (he : eventOf M.text sourceId e = some (.sent k body acknowledged)) (held : stored w.disk.view k = some body)
    (allowed : isBlocked (savedJson M.text w.disk.view) k ≠ true) : Move M sourceId w (w.push e) where
  sound h := h
  readable h := h
  fit h := h
  steps := by
    have hnext : outboxWorld M.text sourceId (w.push e)
        = ⟨outboxOf M.text w.disk.view, .sent k body acknowledged :: (outboxWorld M.text sourceId w).past⟩ := by
      unfold outboxWorld
      rw [World.push_disk, World.push_hist, List.filterMap_cons_some he]
    rw [hnext]
    exact .single (.send acknowledged held allowed)

end Moves

/-! ## What stays -/

section Stays

variable {X Y : Type} {P : Place X Y → Prop}

/-- What a sound directory holds. -/
def Shows (p : Files → Prop) (w : Place X Y) : Prop := w.disk.Sound ∧ p w.disk.view

theorem stable_shows (p : Files → Prop) : Stable (Shows p : Place X Y → Prop) where
  sound _ h := h.1
  quiet w w' h hq := by
    refine ⟨?_, by rw [hq.view]; exact h.2⟩
    cases hq with
    | answered | lost => exact h.1
    | wrote sound _ => exact sound

theorem Shows.mono {p q : Files → Prop} {w : Place X Y} (h : Shows p w) (hpq : ∀ f, p f → q f) : Shows q w :=
  ⟨h.1, hpq _ h.2⟩

theorem Stable.past (hP : Stable P) (e : Durable.Event Directory (Ask X) (Answer Y)) :
    Stable fun w => P w ∧ e ∈ w.hist where
  sound w h := hP.sound w h.1
  quiet w w' h hq := by
    refine ⟨hP.quiet w w' h.1 hq, ?_⟩
    cases hq with
    | answered | lost | wrote => exact List.mem_cons_of_mem _ h.2

end Stays

/-! ## Records -/

/-- The record is that of the key. -/
structure Record.Of (T : FloatText) (k : Key) (record : Record) : Prop where
  name : record.name = k.name
  epoch : record.epoch = k.epoch
  sequence : record.sequence = k.sequence
  document : decoded T record.payload = .ok record.document
  sha256 : record.sha256 = Sha256.hexdigest record.payload

/-- The store holds the records, which are different ones. -/
structure Holding (T : FloatText) (records : List Record) (files : Files) : Prop where
  names : (records.map Record.name).Nodup
  held : ∀ record ∈ records, ∃ k, record.Of T k ∧ stored files k = some record.payload

section Records

variable {T : FloatText} {files : Files}

theorem recordOf_ok {r : Key × ByteArray} {record : Record} (h : recordAt T r = .ok record) :
    record.Of T r.1 ∧ record.payload = r.2 := by
  obtain ⟨document, hdocument, hrecord⟩ := bind_eq_ok.mp h
  cases hrecord
  exact ⟨⟨rfl, rfl, rfl, hdocument, rfl⟩, rfl⟩

theorem stored_set_control {name : String} (hname : name ∈ CONTROLS) (files : Files) (payload : ByteArray) :
    stored (files.set name payload) = stored files := by
  funext k
  exact Dict.get?_set_ne _ _ (name_ne_control k hname).symm

theorem Holding.set_control {records : List Record} (h : Holding T records files) {name : String}
    (hname : name ∈ CONTROLS) (payload : ByteArray) : Holding T records (files.set name payload) where
  names := h.names
  held record hrecord := by
    rw [stored_set_control hname]
    exact h.held record hrecord

theorem Holding.tail {record : Record} {rest : List Record} (h : Holding T (record :: rest) files) :
    Holding T rest files where
  names := (List.nodup_cons.mp h.names).2
  held r hr := h.held r (List.mem_cons_of_mem _ hr)

/-- The other records are held without the first. -/
theorem Holding.erase {record : Record} {rest : List Record} (h : Holding T (record :: rest) files) :
    Holding T rest (files.erase record.name) where
  names := h.tail.names
  held r hr := by
    obtain ⟨k, hk, hstored⟩ := h.tail.held r hr
    refine ⟨k, hk, ?_⟩
    have hne : record.name ≠ k.name := by
      intro heq
      rw [← hk.name] at heq
      exact (List.nodup_cons.mp h.names).1 (heq ▸ List.mem_map_of_mem hr)
    exact (Dict.get?_erase_ne files hne).trans hstored

/-- What `pending` returned is held. -/
theorem holding_pending (htidy : Tidy files) {s : Session} {limit : Int} {exclude : List (String × Int)}
    {records : List Record} (h : pending T s (shown files) limit exclude = .ok records) : Holding T records files := by
  obtain ⟨-, -, -, -, hall⟩ := (pending_eq_ok htidy).mp h
  constructor
  · have hnames : records.map Record.name = (selected files limit exclude).map fun r => r.1.name :=
      forall₂_keys hall fun r record hr => (recordOf_ok hr).1.name
    have hkeys : ((selected files limit exclude).map Prod.fst).Nodup := by
      have hsorted : ((sortedRecords files).map Prod.fst).Nodup :=
        ((perm_sortedRecords files).map _).nodup_iff.mpr (nodup_records files)
      exact hsorted.sublist (((List.take_sublist _ _).trans List.filter_sublist).map _)
    have hmap : ((selected files limit exclude).map fun r => r.1.name)
        = ((selected files limit exclude).map Prod.fst).map Key.name := by
      rw [List.map_map]
      rfl
    rw [hnames, hmap]
    exact hkeys.map fun _ _ => Key.name_inj
  · intro record hrecord
    obtain ⟨r, hr, hrecordAt⟩ := forall₂_right hall record hrecord
    obtain ⟨hof, hpayload⟩ := recordOf_ok hrecordAt
    exact ⟨r.1, hof, by rw [hpayload]; exact (mem_of_selected hr).1⟩

end Records

/-! ## The changes -/

section Changes

variable {T : FloatText} {files : Files} {past : List (Outbox.Event Key String ByteArray)}

/-- The state is saved. -/
theorem change_state {s : ReporterState} {payload : ByteArray} (h : Ahead T s files)
    (hsaved : Saved T s (files.set "state.json" payload)) :
    Outbox.Change Key.epoch Key.sequence past (outboxOf T files) (outboxOf T (files.set "state.json" payload)) := by
  refine .settle (stored_set_control (by decide) files payload) ?_ ?_
  · intro epoch n hn
    obtain ⟨p, hp, hle⟩ := h.checkpoints epoch n hn
    refine ⟨p.sequence, ?_, hle⟩
    show markOf _ epoch = _
    rw [hsaved.checkpoints, hp]
    rfl
  · intro k hk
    show isBlocked _ k = true
    rw [hsaved.blocked]
    exact h.blocked k hk

/-- The controls are no records. -/
theorem AllFit.set_control {M : Machine} {sourceId name : String} (h : AllFit M sourceId files)
    (hname : name ∈ CONTROLS) (payload : ByteArray) : AllFit M sourceId (files.set name payload) := by
  unfold AllFit
  rw [stored_set_control hname]
  exact h

theorem AllFit.set_record {M : Machine} {sourceId : String} {k : Key} {payload : ByteArray}
    (h : AllFit M sourceId files) (hpayload : Fit M sourceId k payload) :
    AllFit M sourceId (files.set k.name payload) := by
  intro k' payload' hstored
  have hget : (files.set k.name payload).get? k'.name = some payload' := hstored
  rw [Dict.get?_set] at hget
  split at hget
  · next hname =>
    obtain rfl := Key.name_inj hname
    cases hget
    exact hpayload
  · exact h k' payload' hget

theorem AllFit.erase {M : Machine} {sourceId : String} (h : AllFit M sourceId files) (name : String) :
    AllFit M sourceId (files.erase name) := by
  intro k payload hstored
  have hget : (files.erase name).get? k.name = some payload := hstored
  rw [Dict.get?_erase] at hget
  split at hget
  · cases hget
  · exact h k payload hget

theorem savedJson_congr {files' : Files} (h : files'.get? "state.json" = files.get? "state.json") :
    savedJson T files' = savedJson T files := by
  unfold savedJson
  rw [h]

theorem readable_congr {sourceId : String} {files' : Files}
    (h : files'.get? "state.json" = files.get? "state.json") (hreadable : Readable T sourceId files) :
    Readable T sourceId files' := fun payload hget => hreadable payload (h ▸ hget)

/-- The result is saved. -/
theorem change_status (payload : ByteArray) :
    Outbox.Change Key.epoch Key.sequence past (outboxOf T files) (outboxOf T (files.set "status.json" payload)) := by
  have hsaved : savedJson T (files.set "status.json" payload) = savedJson T files :=
    savedJson_congr (Dict.get?_set_ne _ _ (by decide))
  refine .settle (stored_set_control (by decide) files payload) ?_ ?_
  · intro epoch n hn
    refine ⟨n, ?_, Nat.le_refl n⟩
    show markOf _ epoch = _
    rw [hsaved]
    exact hn
  · intro k hk
    show isBlocked _ k = true
    rw [hsaved]
    exact hk

theorem file_set_record (files : Files) (k : Key) (payload : ByteArray) :
    (files.set k.name payload).get? "state.json" = files.get? "state.json" :=
  Dict.get?_set_ne _ _ (name_ne_control k (by decide))

theorem file_erase_record (files : Files) (k : Key) : (files.erase k.name).get? "state.json"
    = files.get? "state.json" := Dict.get?_erase_ne _ (name_ne_control k (by decide))

/-- A record above the checkpoint of its epoch is imported. -/
theorem change_put {k : Key} {payload : ByteArray} (hfree : stored files k = none)
    (habove : ∀ n, markOf (savedJson T files) k.epoch = some n → n < k.sequence) :
    Outbox.Change Key.epoch Key.sequence past (outboxOf T files) (outboxOf T (files.set k.name payload)) := by
  have hsaved := savedJson_congr (T := T) (file_set_record files k payload)
  refine .keep (k := k) (b := payload) hfree habove ?_ ?_ ?_ ?_
  · exact (Dict.get?_set _ _ _ _).trans (if_pos rfl)
  · intro k' hk'
    exact Dict.get?_set_ne _ _ fun heq => hk' (Key.name_inj heq).symm
  · show markOf _ = _
    rw [hsaved]
    rfl
  · show (fun k => isBlocked _ k = true) = _
    rw [hsaved]
    rfl

/-- A record that was acknowledged and checkpointed is removed. -/
theorem change_ack {k : Key} {payload : ByteArray} {n : Nat} (hheld : stored files k = some payload)
    (hsent : .sent k payload true ∈ past) (hmarked : markOf (savedJson T files) k.epoch = some n)
    (hbelow : k.sequence ≤ n) (hallowed : isBlocked (savedJson T files) k ≠ true) :
    Outbox.Change Key.epoch Key.sequence past (outboxOf T files) (outboxOf T (files.erase k.name)) := by
  have hsaved := savedJson_congr (T := T) (file_erase_record files k)
  refine .drop hheld hsent hmarked hbelow hallowed ?_ ?_ ?_ ?_
  · exact (Dict.get?_erase _ _ _).trans (if_pos rfl)
  · intro k' hk'
    exact Dict.get?_erase_ne _ fun heq => hk' (Key.name_inj heq).symm
  · show markOf _ = _
    rw [hsaved]
    rfl
  · show (fun k => isBlocked _ k = true) = _
    rw [hsaved]
    rfl

end Changes

end Observation
end PickleInfra
