import PickleInfra.Durable.Makes
import PickleInfra.Observation.Directory
import PickleInfra.Observation.Sample

/-!
# `Observation.Spool` — the store's programs, one system call at a time

`_write` and the operations over it as programs that may be killed between any two system calls, and whose every
call may fail. `makes_write` says how `_write` carries an effect out: the view of the directory stays as it is or
takes the effect, in one step. `makes_perform` says the same of an operation: it decides on what is there, and what it
returned or raised tells what became of its effect.
-/

namespace PickleInfra
namespace Observation

open Python Durable

/-! ## Exceptions -/

/-- What an `OSError` says. -/
inductive Errno where
  | exists
  | other
deriving DecidableEq, Repr

/-- The reasons of a `StoreError` of `locked`, besides those of a file. -/
inductive LockReason where
  | directoryNotPrivate
  | alreadyRunning
deriving DecidableEq, Repr

def LockReason.text : LockReason → String
  | .directoryNotPrivate => "DIRECTORY_NOT_PRIVATE"
  | .alreadyRunning      => "ALREADY_RUNNING"

/-- What stops a run: the program's own exceptions, `IoError`, `OSError`, `ValueError` or `TypeError`, or others. -/
inductive Failure where
  | observation (reason : ObservationReason)
  | store (reason : StoreReason)
  | lock (reason : LockReason)
  | io (reason : String)
  | os (e : Errno)
  | value
  | other
deriving DecidableEq, Repr

/-- `str(error)` of the program's exceptions. -/
def Failure.reason : Failure → Option String
  | .observation r => some r.text
  | .store r       => some r.text
  | .lock r        => some r.text
  | .io text       => some text
  | _              => none

def Stored.lift {α : Type} : Stored α → Except Failure α
  | .ok a    => .ok a
  | .error e => .error (.store e)

def Observed.lift {α : Type} : Observed α → Except Failure α
  | .ok a    => .ok a
  | .error e => .error (.observation e)

theorem Stored.lift_eq_ok {α : Type} {x : Stored α} {a : α} : x.lift = .ok a ↔ x = .ok a := by
  cases x <;> simp [Stored.lift]

theorem Observed.lift_eq_ok {α : Type} {x : Observed α} {a : α} : x.lift = .ok a ↔ x = .ok a := by
  cases x <;> simp [Observed.lift]

/-! ## Questions and answers -/

inductive SystemCall where
  | lock
  | inspect
  | create
  | write (size : Nat)
  | fsync
  | close
  | rename
  | link
  | unlink
deriving DecidableEq, Repr

/-- What a program asks: the system, a new UUID, or what is outside. -/
inductive Ask (X : Type) where
  | system (c : SystemCall)
  | uuid
  | outside (x : X)

def Ask.isOutside {X : Type} : Ask X → Bool
  | .outside _ => true
  | _          => false

/-- `uuid4()`, as its text. -/
structure Uuid where
  text : String
  valid : isUuid text = true

/-- An answer; every question reads its part of it. -/
structure Answer (Y : Type) where
  /-- What a system call raises, as an `OSError` or as the `StoreError` that is made of it. -/
  error : Option Failure
  /-- How many bytes a write wrote. -/
  count : Nat
  uuid : Uuid
  reply : Y

variable {X Y α : Type}

abbrev Spooling (X Y α : Type) := Raising Failure Directory (Ask X) (Answer Y) α

def raised {Y : Type} (a : Answer Y) : Except Failure Unit :=
  match a.error with
  | some e => .error e
  | none   => .ok ()

/-- A call that has no effect on the directory, or before it has one. -/
def call (c : SystemCall) : Spooling X Y Unit := ask raised (.system c)

def lifted (x : Except Failure α) : Spooling X Y α := ExceptT.mk (.ret x)

/-! ## `_write` -/

/-- `os.write`, which writes no more than it is given. -/
def writeCount (size : Nat) : Spooling X Y Nat :=
  ask (fun a => (raised a).map fun _ => min a.count size) (.system (.write size))

/-- `os.open(temporary, O_CREAT | O_EXCL)` -/
def createTemporary (temporary : String) : Spooling X Y Nat := do
  call .create
  let d ← readStore
  if (d.names.get? temporary).isSome then throw (.os .exists)
  else do
    modify (Directory.create temporary)
    pure d.next

/-- The loop that writes the payload; every round writes something, or it raises. -/
def fill (file : Nat) : Nat → List UInt8 → Spooling X Y Unit
  | 0, _                  => pure ()
  | rounds + 1, remaining =>
    if remaining.isEmpty then pure ()
    else do
      let written ← writeCount remaining.length
      if written = 0 then throw (.store .writeFailed)
      else do
        modify (Directory.append file (remaining.take written))
        fill file rounds (remaining.drop written)

/-- `os.unlink(temporary)`, with `FileNotFoundError` passed over. -/
def unlinkTemporary (temporary : String) : Spooling X Y Unit := do
  call .unlink
  modify (Directory.unlink temporary)

/-- The `finally` block; the descriptor may still be open. -/
def finish (opened : Bool) (temporary : String) : Spooling X Y Unit := do
  if opened then call .close else pure ()
  unlinkTemporary temporary

/-- `os.replace`, or `os.link` and `os.unlink`, and `os.fsync` of the directory. -/
def publish (replace : Bool) (temporary : String) (file : Nat) (name : String) : Spooling X Y Unit := do
  if replace then do
    call .rename
    modify (Directory.rename temporary file name)
  else do
    call .link
    let d ← readStore
    if (d.names.get? name).isSome then throw (.os .exists)
    else do
      modify (Directory.link file name)
      unlinkTemporary temporary
  call .fsync

/-- `_write`. Before the descriptor is closed, the `finally` block closes it. -/
def write_ (name : String) (payload : ByteArray) (replace : Bool) : Spooling X Y Unit := do
  let u ← ask (fun a => .ok a.uuid) .uuid
  let temporary := temporaryName (String.ofList (hexOf u.text))
  let file ← createTemporary temporary
  rescue (fun _ => true)
    (do
      fill file payload.size payload.data.toList
      call .fsync
      call .close)
    (fun e => do
      finish true temporary
      throw e)
  tryFinally (publish replace temporary file name) (finish false temporary)

/-! ## Operations -/

/-- What an operation decides on what the directory shows. -/
def look (op : Listing → Stored α) : Spooling X Y α := do
  call .inspect
  let d ← readStore
  lifted (op d.listing).lift

/-- What an operation does to the directory. -/
def carryOut : Effect → Spooling X Y Unit
  | .nothing              => pure ()
  | .link name payload    => write_ name payload false
  | .replace name payload => write_ name payload true
  | .unlink name          => do
    call .unlink
    modify (Directory.unlink name)
    call .fsync

def perform (op : Listing → Stored (α × Effect)) : Spooling X Y α := do
  let found ← look op
  carryOut found.2
  pure found.1

/-! ## Quiet moves -/

abbrev Place (X Y : Type) := World Directory (Ask X) (Answer Y)

/-- An answer of the system, or a kill while it was awaited, or a write that the view does not show. -/
inductive Quiet : Place X Y → Place X Y → Prop where
  | answered {w : Place X Y} (q : Ask X) (a : Answer Y) (h : q.isOutside = false) : Quiet w (w.push (.answered q a))
  | lost {w : Place X Y} (q : Ask X) (h : q.isOutside = false) : Quiet w (w.push (.lost q))
  | wrote {w : Place X Y} {d : Directory} (sound : d.Sound) (view : d.view = w.disk.view) : Quiet w (w.wrote d)

/-- What holds of a sound directory and stays through quiet moves. -/
structure Stable (P : Place X Y → Prop) : Prop where
  sound : ∀ w, P w → w.disk.Sound
  quiet : ∀ w w', P w → Quiet w w' → P w'

theorem Stable.or {P Q : Place X Y → Prop} (hP : Stable P) (hQ : Stable Q) : Stable fun w => P w ∨ Q w where
  sound w h := h.elim (hP.sound w) (hQ.sound w)
  quiet w w' h hq := h.imp (fun h => hP.quiet w w' h hq) fun h => hQ.quiet w w' h hq

/-- A file is being written under a temporary name. -/
structure Writing (temporary : String) (file : Nat) (written : List UInt8) (d : Directory) : Prop where
  fresh : file < d.next
  unnamed : ∀ e ∈ d.lasting, e.2 ≠ file
  contents : d.contents file = written

section Programs

variable {M : Place X Y → Place X Y → Prop} {P Q : Place X Y → Prop} {w : Place X Y} {temporary : String}

theorem makes_call (hquiet : ∀ w w', Quiet w w' → M w w') {c : SystemCall}
    (hP : ∀ a, P (w.push (.answered (.system c) a))) :
    Makes M (call c : Spooling X Y Unit) w (fun _ => P) fun _ => P := by
  refine makes_ask (hquiet _ _ (.lost _ rfl)) (fun a => hquiet _ _ (.answered _ a rfl)) fun a => ?_
  cases hraised : raised a with
  | ok _ => exact hP a
  | error e => exact hP a

theorem Stable.call (hP : Stable P) (hw : P w) (c : SystemCall) (a : Answer Y) :
    P (w.push (.answered (.system c) a)) := hP.quiet _ _ hw (.answered _ a rfl)

theorem makes_lifted {α : Type} {x : Except Failure α} {ok : α → Place X Y → Prop} {err : Failure → Place X Y → Prop}
    (hok : ∀ a, x = .ok a → ok a w) (herr : ∀ e, err e w) : Makes M (lifted x) w ok err := by
  refine makes_reply ?_
  cases x with
  | ok a => exact hok a rfl
  | error e => exact herr e

theorem makes_unlinkTemporary (hquiet : ∀ w w', Quiet w w' → M w w') (hP : Stable P) (hw : P w)
    (htemporary : isTemporary temporary = true) :
    Makes M (unlinkTemporary temporary : Spooling X Y Unit) w (fun _ => P) fun _ => P := by
  refine (makes_call hquiet fun a => hP.call hw _ a).bind fun _ w₁ hw₁ => ?_
  have hmove : Quiet w₁ (w₁.wrote (w₁.disk.unlink temporary)) :=
    .wrote ((hP.sound w₁ hw₁).unlink temporary) (view_unlink_temporary htemporary)
  exact (makes_modify (hquiet _ _ hmove)).mono (fun _ _ h => h ▸ hP.quiet _ _ hw₁ hmove) fun _ _ h => h

theorem makes_finish (hquiet : ∀ w w', Quiet w w' → M w w') (hP : Stable P) (hw : P w)
    (htemporary : isTemporary temporary = true) (opened : Bool) :
    Makes M (finish opened temporary : Spooling X Y Unit) w (fun _ => P) fun _ => P := by
  unfold finish
  cases opened with
  | true => exact (makes_call hquiet fun a => hP.call hw _ a).bind fun _ w₁ hw₁ =>
      makes_unlinkTemporary hquiet hP hw₁ htemporary
  | false => exact makes_unlinkTemporary hquiet hP hw htemporary

theorem makes_createTemporary (hquiet : ∀ w w', Quiet w w' → M w w') (hP : Stable P) (hw : P w)
    (htemporary : isTemporary temporary = true) :
    Makes M (createTemporary temporary : Spooling X Y Nat) w
      (fun file w' => P w' ∧ Writing temporary file [] w'.disk) fun _ => P := by
  refine (makes_call hquiet fun a => hP.call hw _ a).bind fun _ w₁ hw₁ => ?_
  refine makes_readStore.bind fun d w₂ hd => ?_
  obtain ⟨rfl, rfl⟩ := hd
  split
  · exact .throw hw₁
  · have hsound := hP.sound w₂ hw₁
    have hmove : Quiet w₂ (w₂.wrote (w₂.disk.create temporary)) :=
      .wrote (hsound.create htemporary) (view_create hsound htemporary)
    refine (makes_modify (hquiet _ _ hmove)).bind fun _ w₃ hw₃ => ?_
    subst hw₃
    refine .pure ⟨hP.quiet _ _ hw₁ hmove, Nat.lt_succ_self _, fun e he => ?_, if_pos rfl⟩
    have hlasting : (w₂.disk.create temporary).lasting = w₂.disk.lasting := lasting_set_temporary htemporary _ _
    rw [World.wrote_disk, hlasting] at he
    exact Nat.ne_of_lt (hsound.fresh e (mem_lasting.mp he).1)

/-- Every round of the loop writes on. -/
theorem makes_fill (hquiet : ∀ w w', Quiet w w' → M w w') (hP : Stable P) {file rounds : Nat}
    {written remaining : List UInt8} (hw : P w) (hwriting : Writing temporary file written w.disk)
    (hrounds : remaining.length ≤ rounds) :
    Makes M (fill file rounds remaining : Spooling X Y Unit) w
      (fun _ w' => P w' ∧ Writing temporary file (written ++ remaining) w'.disk) fun _ => P := by
  induction rounds generalizing w written remaining with
  | zero =>
      obtain rfl := List.length_eq_zero_iff.mp (Nat.le_zero.mp hrounds)
      rw [List.append_nil]
      exact .pure ⟨hw, hwriting⟩
  | succ rounds ih =>
      unfold fill
      split
      · next hempty =>
        obtain rfl := List.isEmpty_iff.mp hempty
        rw [List.append_nil]
        exact .pure ⟨hw, hwriting⟩
      · have hcount : Makes M (writeCount remaining.length : Spooling X Y Nat) w
            (fun _ w' => P w' ∧ Writing temporary file written w'.disk) fun _ => P := by
          refine makes_ask (hquiet _ _ (.lost _ rfl)) (fun a => hquiet _ _ (.answered _ a rfl)) fun a => ?_
          have hpushed := hP.quiet _ _ hw (.answered (.system (.write remaining.length)) a rfl)
          cases hraised : raised a with
          | ok _ => exact ⟨hpushed, hwriting⟩
          | error e => exact hpushed
        refine hcount.bind fun count w₁ hw₁ => ?_
        obtain ⟨hw₁, hwriting₁⟩ := hw₁
        split
        · exact .throw hw₁
        · next hcount =>
          have hmove : Quiet w₁ (w₁.wrote (w₁.disk.append file (remaining.take count))) :=
            .wrote ((hP.sound w₁ hw₁).append file _) (view_append hwriting₁.unnamed _)
          refine (makes_modify (hquiet _ _ hmove)).bind fun _ w₂ hw₂ => ?_
          subst hw₂
          have hcontents :
              (w₁.disk.append file (remaining.take count)).contents file = written ++ remaining.take count := by
            show (if file = file then _ else _) = _
            rw [if_pos rfl, hwriting₁.contents]
          have hrest : (remaining.drop count).length ≤ rounds := by
            rw [List.length_drop]
            omega
          have hnext := ih (hP.quiet _ _ hw₁ hmove) ⟨hwriting₁.fresh, hwriting₁.unnamed, hcontents⟩ hrest
          rw [List.append_assoc, List.take_append_drop] at hnext
          exact hnext

/-- The effect, from where the file is written to where the name names it. -/
theorem makes_publish (hquiet : ∀ w w', Quiet w w' → M w w') (hP : Stable P) (hQ : Stable Q)
    (htemporary : isTemporary temporary = true) {name : String} (hname : Vocabulary name) {payload : ByteArray}
    (heffect : ∀ w d, P w → d.Sound → d.view = w.disk.view.set name payload → M w (w.wrote d) ∧ Q (w.wrote d))
    {file : Nat} (hw : P w) (hwriting : Writing temporary file payload.data.toList w.disk) (replace : Bool) :
    Makes M (publish replace temporary file name : Spooling X Y Unit) w (fun _ => Q) fun _ w' => P w' ∨ Q w' := by
  have hbytes : ∀ w' : Place X Y, Writing temporary file payload.data.toList w'.disk →
      w'.disk.bytes file = payload := by
    intro w' hwriting'
    unfold Directory.bytes
    rw [hwriting'.contents, Array.toArray_toList]
  have hnot := not_temporary hname
  have hcall : ∀ c, Makes M (call c : Spooling X Y Unit) w
      (fun _ w' => P w' ∧ Writing temporary file payload.data.toList w'.disk) fun _ w' => P w' ∨ Q w' := by
    intro c
    refine (makes_call (P := fun w' => P w' ∧ Writing temporary file payload.data.toList w'.disk) hquiet
      fun a => ⟨hP.call hw _ a, hwriting⟩).mono (fun _ _ h => h) fun _ _ h => .inl h.1
  have hfsync : ∀ w', Q w' → Makes M (call .fsync : Spooling X Y Unit) w' (fun _ => Q) fun _ w' => P w' ∨ Q w' :=
    fun w' hw' => (makes_call hquiet fun a => hQ.call hw' _ a).mono (fun _ _ h => h) fun _ _ h => .inr h
  unfold publish
  cases replace with
  | true =>
      refine (hcall _).bind fun _ w₁ h₁ => ?_
      obtain ⟨hw₁, hwriting₁⟩ := h₁
      obtain ⟨hmove, hdone⟩ := heffect w₁ _ hw₁
        ((hP.sound w₁ hw₁).rename hname hwriting₁.fresh hwriting₁.unnamed)
        ((view_rename htemporary hnot).trans (by rw [hbytes w₁ hwriting₁]))
      exact (makes_modify hmove).bind fun _ w₂ hw₂ => hfsync w₂ (hw₂ ▸ hdone)
  | false =>
      refine (hcall _).bind fun _ w₁ h₁ => ?_
      obtain ⟨hw₁, hwriting₁⟩ := h₁
      refine makes_readStore.bind fun d w₂ hd => ?_
      obtain ⟨rfl, rfl⟩ := hd
      dsimp only
      split
      · exact .throw (.inl hw₁)
      · obtain ⟨hmove, hdone⟩ := heffect w₂ _ hw₁
          ((hP.sound w₂ hw₁).link hname hwriting₁.fresh hwriting₁.unnamed)
          ((view_link hnot).trans (by rw [hbytes w₂ hwriting₁]))
        refine (makes_modify hmove).bind fun _ w₃ hw₃ => ?_
        exact ((makes_unlinkTemporary hquiet hQ (hw₃ ▸ hdone) htemporary).mono (fun _ _ h => h)
          fun _ _ h => .inr h).bind fun _ w₄ hw₄ => hfsync w₄ hw₄

/-- **`_write` carries its effect out in one step of the view**, or does not: where it returned, it did. -/
theorem makes_write (hquiet : ∀ w w', Quiet w w' → M w w') (hP : Stable P) (hQ : Stable Q) {name : String}
    (hname : Vocabulary name) {payload : ByteArray}
    (heffect : ∀ w d, P w → d.Sound → d.view = w.disk.view.set name payload → M w (w.wrote d) ∧ Q (w.wrote d))
    (hw : P w) (replace : Bool) :
    Makes M (write_ name payload replace : Spooling X Y Unit) w (fun _ => Q) fun _ w' => P w' ∨ Q w' := by
  have huuid : Makes M (ask (fun a => .ok a.uuid) .uuid : Spooling X Y Uuid) w (fun _ => P) fun _ w' => P w' ∨ Q w' :=
    makes_ask (hquiet _ _ (.lost _ rfl)) (fun a => hquiet _ _ (.answered _ a rfl)) fun a =>
      hP.quiet _ _ hw (.answered .uuid a rfl)
  unfold write_
  refine huuid.bind fun u w₁ hw₁ => ?_
  have htemporary := isTemporary_temporaryName (String.ofList (hexOf u.text))
  refine ((makes_createTemporary hquiet hP hw₁ htemporary).mono (fun _ _ h => h) fun _ _ h => .inl h).bind
    fun file w₂ h₂ => ?_
  -- until the descriptor is closed, what is raised leaves the view as it was
  have hwritten : Makes M (do fill file payload.size payload.data.toList; call .fsync; call .close : Spooling X Y Unit)
      w₂ (fun _ w' => P w' ∧ Writing (temporaryName (String.ofList (hexOf u.text))) file payload.data.toList w'.disk)
      fun _ => P := by
    have hsize : payload.data.toList.length ≤ payload.size := Nat.le_of_eq (Array.length_toList)
    refine (makes_fill hquiet hP h₂.1 h₂.2 hsize).bind fun _ w₃ h₃ => ?_
    rw [List.nil_append] at h₃
    have hcall : ∀ c w',
        P w' ∧ Writing (temporaryName (String.ofList (hexOf u.text))) file payload.data.toList w'.disk →
        Makes M (call c : Spooling X Y Unit) w' (fun _ w' => P w' ∧
          Writing (temporaryName (String.ofList (hexOf u.text))) file payload.data.toList w'.disk) fun _ => P := by
      intro c w' h
      refine (makes_call (P := fun w' => P w' ∧ Writing (temporaryName (String.ofList (hexOf u.text))) file
        payload.data.toList w'.disk) hquiet fun a => ⟨hP.call h.1 _ a, h.2⟩).mono (fun _ _ h => h) fun _ _ h => h.1
    exact (hcall _ w₃ h₃).bind fun _ w₄ h₄ => hcall _ w₄ h₄
  have hclosed : Makes M (rescue (fun _ => true)
      (do fill file payload.size payload.data.toList; call .fsync; call .close : Spooling X Y Unit)
      (fun e => do finish true (temporaryName (String.ofList (hexOf u.text))); throw e)) w₂
      (fun _ w' => P w' ∧ Writing (temporaryName (String.ofList (hexOf u.text))) file payload.data.toList w'.disk)
      fun _ w' => P w' ∨ Q w' := by
    refine hwritten.rescue (fun e w₃ _ hw₃ => ?_) fun _ _ hcaught _ => by cases hcaught
    exact ((makes_finish hquiet hP hw₃ htemporary true).mono (fun _ _ h => h) fun _ _ h => .inl h).bind
      fun _ w₄ hw₄ => .throw (.inl hw₄)
  refine hclosed.bind fun _ w₃ h₃ => ?_
  refine (makes_publish hquiet hP hQ htemporary hname heffect h₃.1 h₃.2 replace).tryFinally ?_ ?_
  · exact fun _ w₄ hw₄ => (makes_finish hquiet hQ hw₄ htemporary false).mono (fun _ _ h => h) fun _ _ h => .inr h
  · exact fun _ w₄ hw₄ => makes_finish hquiet (hP.or hQ) hw₄ htemporary false

end Programs

/-! ## Operations and their effects -/

theorem Quiet.view {w w' : Place X Y} (h : Quiet w w') : w'.disk.view = w.disk.view := by
  cases h with
  | answered | lost => rfl
  | wrote _ view => exact view

/-- The effect's name, where it makes one, is a name of the store. -/
def Effect.Named : Effect → Prop
  | .link name _ | .replace name _ => Vocabulary name
  | _                              => True

section Operations

variable {M : Place X Y → Place X Y → Prop} {P : Place X Y → Prop} {w : Place X Y}

/-- What is looked up is there. -/
theorem makes_look (hquiet : ∀ w w', Quiet w w' → M w w') (hP : Stable P) {op : Listing → Stored α}
    (hseen : ∀ d : Directory, d.Sound → Seen d op) (hw : P w) :
    Makes M (look op : Spooling X Y α) w (fun r w' => P w' ∧ op (shown w'.disk.view) = .ok r) fun _ => P := by
  refine (makes_call hquiet fun a => hP.call hw _ a).bind fun _ w₁ hw₁ => ?_
  refine makes_readStore.bind fun d w₂ hd => ?_
  obtain ⟨rfl, rfl⟩ := hd
  refine makes_reply ?_
  cases hfound : op w₂.disk.listing with
  | ok r => exact ⟨hw₁, hseen _ (hP.sound w₂ hw₁) r hfound⟩
  | error e => exact hw₁

theorem Stable.found (hP : Stable P) (op : Listing → Stored α) (r : α) :
    Stable fun w => P w ∧ op (shown w.disk.view) = .ok r where
  sound w h := hP.sound w h.1
  quiet w w' h hq := ⟨hP.quiet w w' h.1 hq, by rw [hq.view]; exact h.2⟩

theorem makes_carryOut (hquiet : ∀ w w', Quiet w w' → M w w') (hP : Stable P) {Q : Place X Y → Prop} (hQ : Stable Q)
    {effect : Effect} (hnamed : effect.Named) (hnothing : effect = .nothing → Q w)
    (heffect : ∀ w d, P w → d.Sound → d.view = effect.apply w.disk.view → M w (w.wrote d) ∧ Q (w.wrote d))
    (hw : P w) : Makes M (carryOut effect : Spooling X Y Unit) w (fun _ => Q) fun _ w' => P w' ∨ Q w' := by
  cases effect with
  | nothing => exact .pure (hnothing rfl)
  | link name payload => exact makes_write hquiet hP hQ hnamed heffect hw false
  | replace name payload => exact makes_write hquiet hP hQ hnamed heffect hw true
  | unlink name =>
      refine ((makes_call hquiet fun a => hP.call hw _ a).mono (fun _ _ h => h) fun _ _ h => .inl h).bind
        fun _ w₁ hw₁ => ?_
      obtain ⟨hmove, hdone⟩ := heffect w₁ _ hw₁ ((hP.sound w₁ hw₁).unlink name) (view_unlink _ name)
      refine (makes_modify hmove).bind fun _ w₂ hw₂ => ?_
      exact (makes_call hquiet fun a => hQ.call (hw₂ ▸ hdone) _ a).mono (fun _ _ h => h) fun _ _ h => .inr h

/-- **An operation decides on what is there, and its effect is carried out in one step of the view.** -/
theorem makes_perform (hquiet : ∀ w w', Quiet w w' → M w w') (hP : Stable P) {R : α → Place X Y → Prop}
    (hR : ∀ r, Stable (R r)) {op : Listing → Stored (α × Effect)} (hseen : ∀ d : Directory, d.Sound → Seen d op)
    (hnamed : ∀ w r effect, P w → op (shown w.disk.view) = .ok (r, effect) → effect.Named)
    (hnothing : ∀ w r, P w → op (shown w.disk.view) = .ok (r, .nothing) → R r w)
    (heffect : ∀ w r effect d, P w → op (shown w.disk.view) = .ok (r, effect) → d.Sound →
      d.view = effect.apply w.disk.view → M w (w.wrote d) ∧ R r (w.wrote d)) (hw : P w) :
    Makes M (perform op : Spooling X Y α) w R fun _ w' => P w' ∨ ∃ r, R r w' := by
  refine ((makes_look hquiet hP hseen hw).mono (fun _ _ h => h) fun _ _ h => .inl h).bind fun found w₁ h₁ => ?_
  obtain ⟨r, effect⟩ := found
  have hnothing' : effect = .nothing → R r w₁ := by
    rintro rfl
    exact hnothing w₁ r h₁.1 h₁.2
  refine ((makes_carryOut hquiet (hP.found op (r, effect)) (hR r) (hnamed w₁ r effect h₁.1 h₁.2) hnothing'
    (fun w d hw hsound hview => heffect w r effect d hw.1 hw.2 hsound hview) h₁).mono (fun _ _ h => h) ?_).bind ?_
  · exact fun _ w' h => h.imp (fun h => h.1) fun h => ⟨r, h⟩
  · exact fun _ w₂ hw₂ => .pure hw₂

/-- **A control is saved in one step of the view.** -/
theorem makes_saveControl (hquiet : ∀ w w', Quiet w w' → M w w') (hP : Stable P) {Q : Place X Y → Prop} (hQ : Stable Q)
    {T : FloatText} {s : Session} {name : String} {value : Json} (hname : name ∈ CONTROLS)
    (heffect : ∀ w payload d, P w → encoded T value = .ok payload → payload.size ≤ controlLimit s.limits name →
      d.Sound → d.view = w.disk.view.set name payload → M w (w.wrote d) ∧ Q (w.wrote d)) (hw : P w) :
    Makes M (perform fun dir => saveControl T s dir name value : Spooling X Y Unit) w (fun _ => Q)
      fun _ w' => P w' ∨ Q w' := by
  refine (makes_perform hquiet hP (fun _ => hQ) (fun d _ => seen_saveControl _ _) ?_ ?_ ?_ hw).mono (fun _ _ h => h)
    fun _ _ h => h.imp id fun h => h.choose_spec
  · intro w r effect _ h
    obtain ⟨-, payload, -, -, -, -, rfl⟩ := saveControl_eq_ok.mp h
    exact .inr (.inl hname)
  · intro w r _ h
    obtain ⟨-, payload, -, -, -, -, heq⟩ := saveControl_eq_ok.mp h
    cases heq
  · intro w r effect d hw h hsound hview
    obtain ⟨-, payload, hpayload, hsize, -, -, rfl⟩ := saveControl_eq_ok.mp h
    exact heffect w payload d hw hpayload hsize hsound hview

end Operations

end Observation
end PickleInfra
