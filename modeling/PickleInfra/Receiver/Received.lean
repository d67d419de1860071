import PickleInfra.Python.Sha256
import PickleInfra.Receiver.Receive

/-!
# `Receiver.Received` — what a reception that returned or raised leaves

From a tree `T` and a stream `S`, the reception only ever adds its temporary file (`Partial`) and, at the
very end, the output. A return means that `S` had the declared length and digest; whatever happens, what
was at the output path stays; and the temporary file goes, unless a call about that file itself fails.
-/

namespace PickleInfra
namespace Receiver

open Python Durable

section Received

variable {digest : List UInt8 → String} {c : Config} {r : Request}
variable {good : Ask → Answer → Prop} {w : World Disk Ask Answer} {err : World Disk Ask Answer → Prop}

/-! ## The effects -/

theorem ends_reply {α : Type} {get : Answer → α} {q : Ask} {ok : α → World Disk Ask Answer → Prop}
    (hok : ∀ a, good q a → a.raised = false → ok (get a) (w.push (.answered q a)))
    (herr : ∀ a, good q a → a.raised = true → err (w.push (.answered q a))) :
    Ends good (ask (reply get) q : Receiving α) w ok err := by
  refine ends_ask fun a ha => ?_
  unfold reply
  cases hraised : a.raised with
  | true => exact herr a ha hraised
  | false => exact hok a ha hraised

/-- A call that changes nothing. -/
theorem ends_measure {α : Type} {get : Answer → α} {q : Ask}
    (herr : ∀ w' : World Disk Ask Answer, w'.disk = w.disk → err w') :
    Ends good (ask (reply get) q : Receiving α) w (fun _ w' => w'.disk = w.disk) err :=
  ends_reply (fun _ _ _ => rfl) fun _ _ _ => herr _ rfl

theorem ends_step (name : String) (herr : ∀ w' : World Disk Ask Answer, w'.disk = w.disk → err w') :
    Ends good (step name) w (fun _ w' => w'.disk = w.disk) err := ends_measure herr

theorem ends_refuseIf {bad : Bool} {message : String} (herr : err w) :
    Ends good (refuseIf bad message) w (fun _ w' => w' = w ∧ bad = false) err := by
  unfold refuseIf
  cases bad with
  | true => exact .throw herr
  | false => exact .pure ⟨rfl, rfl⟩

theorem ends_readStream {n : Nat} (hn : 1 ≤ n)
    (herr : ∀ w' : World Disk Ask Answer, w'.disk = w.disk → err w') :
    Ends good (readStream n) w
      (fun bytes w' => ∃ rest, w.disk.stream = bytes ++ rest ∧ w'.disk = ⟨w.disk.tree, rest⟩ ∧
        bytes.length ≤ n ∧ (bytes = [] → w.disk.stream = [])) err := by
  refine (ends_measure herr).bind fun chunk w₁ h₁ => ?_
  refine ends_readStore.bind ?_
  rintro _ w₁ ⟨rfl, rfl⟩
  refine (ends_modify _).bind ?_
  rintro _ _ rfl
  -- the bytes, and what is left of the stream
  have hsplit := List.take_append_drop (max 1 (min chunk n)) w₁.disk.stream
  have hdrop : w₁.disk.stream.drop (w₁.disk.stream.take (max 1 (min chunk n))).length =
      w₁.disk.stream.drop (max 1 (min chunk n)) := by
    rw [List.length_take]
    rcases Nat.le_total (max 1 (min chunk n)) w₁.disk.stream.length with hle | hle
    · rw [Nat.min_eq_left hle]
    · rw [Nat.min_eq_right hle, List.drop_length, List.drop_of_length_le hle]
  refine .pure ⟨w₁.disk.stream.drop (max 1 (min chunk n)), ?_, ?_, ?_, ?_⟩
  · rw [hsplit, h₁]
  · rw [World.wrote_disk, hdrop, h₁]
  · rw [List.length_take]
    omega
  · intro hnone
    rw [← h₁]
    rw [List.take_eq_nil_iff] at hnone
    rcases hnone with hzero | hnone
    · omega
    · exact hnone

/-! ## The temporary file -/

/-- The temporary file is new: it is not the output, and it was not in the tree. -/
structure Fresh (c : Config) (r : Request) (T : Dict String Node) (path : String) : Prop where
  absent : T.get? path = none
  ne : path ≠ output c r

/-- Some part of the stream was written to the temporary file; nothing else has changed. -/
def Partial (T : Dict String Node) (path : String) (size : Nat) (w : World Disk Ask Answer) : Prop :=
  ∃ got, w.disk.tree = T.set path (.file got) ∧ got.length ≤ size

theorem append_written {T : Dict String Node} {path : String} (got chunk S : List UInt8) :
    (⟨T.set path (.file got), S⟩ : Disk).append path chunk = ⟨T.set path (.file (got ++ chunk)), S⟩ := by
  unfold Disk.append
  simp

/-- A name of `mkstemp` differs from the names of artifacts. -/
theorem temporary_ne (name : String) : folder c r ++ "/.incoming-" ++ name ≠ output c r := by
  unfold output
  intro h
  have hlist := congrArg String.toList h
  simp only [String.toList_append, List.append_assoc, List.append_cancel_left_eq] at hlist
  split at hlist <;> cases hlist

theorem ends_prepare (herr : ∀ w' : World Disk Ask Answer, w'.disk = w.disk → err w') :
    Ends good (prepare c r) w (fun path w' => Fresh c r w.disk.tree path ∧
      w'.disk = ⟨w.disk.tree.set path (.file []), w.disk.stream⟩ ∧
      (w.disk.tree.total Node.size + r.size : Int) ≤ c.maximumStagingBytes) err := by
  refine (ends_step _ herr).bind fun _ w₁ h₁ => ?_
  refine (ends_step _ fun w' h => herr w' (h.trans h₁)).bind fun _ w₂ h₂ => ?_
  refine (ends_step _ fun w' h => herr w' (h.trans (h₂.trans h₁))).bind fun _ w₃ h₃ => ?_
  have hdisk : w₃.disk = w.disk := h₃.trans (h₂.trans h₁)
  have hbudget : Ends good (budget c r) w₃ (fun _ w' => w'.disk = w.disk ∧
      (w.disk.tree.total Node.size + r.size : Int) ≤ c.maximumStagingBytes) err := by
    refine (ends_step _ fun w' h => herr w' (h.trans hdisk)).bind fun _ w₄ h₄ => ?_
    refine ends_readStore.bind ?_
    rintro _ _ ⟨rfl, rfl⟩
    refine (ends_refuseIf (herr _ (h₄.trans hdisk))).bind ?_
    rintro _ _ ⟨rfl, hroom⟩
    rw [h₄, hdisk, decide_eq_false_iff_not, Int.not_lt] at hroom
    refine (ends_measure fun w' h => herr w' (h.trans (h₄.trans hdisk))).bind fun free w₅ h₅ => ?_
    refine (ends_refuseIf (herr _ (h₅.trans (h₄.trans hdisk)))).mono ?_ fun _ h => h
    rintro _ _ ⟨rfl, -⟩
    exact ⟨h₅.trans (h₄.trans hdisk), hroom⟩
  refine hbudget.bind ?_
  rintro _ w₄ ⟨h₄, hroom⟩
  refine (ends_measure fun w' h => herr w' (h.trans h₄)).bind fun name w₅ h₅ => ?_
  refine ends_readStore.bind ?_
  rintro _ _ ⟨rfl, rfl⟩
  rw [h₅, h₄]
  cases hget : w.disk.tree.get? (folder c r ++ "/.incoming-" ++ name) with
  | some node => exact .throw (herr _ (h₅.trans h₄))
  | none =>
      refine (ends_modify _).bind ?_
      rintro _ _ rfl
      refine .pure ⟨⟨hget, temporary_ne name⟩, ?_, hroom⟩
      rw [World.wrote_disk, h₅, h₄]

/-! ## The copy -/

theorem ends_copy {T : Dict String Node} {path : String} {size : Nat}
    (herr : ∀ w' : World Disk Ask Answer, Partial T path size w' → err w') {rounds remaining : Nat}
    {received S : List UInt8} (hrounds : remaining ≤ rounds) (hsize : received.length + remaining = size)
    {w : World Disk Ask Answer} (hw : w.disk = ⟨T.set path (.file received), S⟩) :
    Ends good (copy path rounds remaining received) w
      (fun got w' => ∃ more S', S = more ++ S' ∧ got = received ++ more ∧ got.length = size ∧
        w'.disk = ⟨T.set path (.file got), S'⟩) err := by
  induction rounds generalizing remaining received S w with
  | zero =>
      obtain rfl : remaining = 0 := Nat.le_zero.mp hrounds
      exact .pure ⟨[], S, rfl, (List.append_nil _).symm, hsize, hw⟩
  | succ rounds ih =>
      unfold copy
      by_cases hzero : remaining = 0
      · rw [if_pos hzero]
        subst hzero
        exact .pure ⟨[], S, rfl, (List.append_nil _).symm, hsize, hw⟩
      rw [if_neg hzero]
      -- what was written so far stays when a step fails
      have hkept : ∀ {w' : World Disk Ask Answer}, w'.disk.tree = T.set path (.file received) → err w' :=
        fun ht => herr _ ⟨received, ht, by omega⟩
      refine (ends_readStream (by omega) fun w' h => hkept (by rw [h, hw])).bind ?_
      rintro chunk w₁ ⟨rest, hS, h₁, hlength, -⟩
      rw [hw] at hS h₁
      replace hS : S = chunk ++ rest := hS
      refine (ends_refuseIf (hkept (by rw [h₁]))).bind ?_
      rintro _ _ ⟨rfl, hsome⟩
      refine (ends_step _ fun w' h => hkept (by rw [h, h₁])).bind fun _ w₂ h₂ => ?_
      refine (ends_modify _).bind ?_
      rintro _ _ rfl
      have hpos : 0 < chunk.length := by
        rw [List.length_pos_iff]
        rintro rfl
        cases hsome
      have hnext : (w₂.wrote (w₂.disk.append path chunk)).disk =
          ⟨T.set path (.file (received ++ chunk)), rest⟩ := by
        rw [World.wrote_disk, h₂, h₁, append_written]
      refine (ih ?_ ?_ hnext).mono ?_ fun _ h => h
      · omega
      · rw [List.length_append]
        omega
      rintro got w' ⟨more, S', hrest, rfl, hgot, hdisk⟩
      refine ⟨chunk ++ more, S', ?_, ?_, hgot, hdisk⟩
      · rw [hS, hrest, List.append_assoc]
      · rw [List.append_assoc]

/-- What the body left where it returned: the stream was exactly the artifact, and the output is the
    temporary file, or what was there before. -/
structure Filled (digest : List UInt8 → String) (c : Config) (r : Request) (T : Dict String Node)
    (path : String) (S : List UInt8) (disk : Disk) : Prop where
  length : S.length = r.size
  hash : digest S = r.sha256
  ended : disk.stream = []
  tree : (∃ content, T.get? (output c r) = some (.file content) ∧ content.length = r.size ∧
      digest content = r.sha256 ∧ disk.tree = T.set path (.file S)) ∨
    (T.get? (output c r) = none ∧ disk.tree = (T.set path (.file S)).set (output c r) (.file S))

theorem ends_fill {T : Dict String Node} {path : String} {S : List UInt8} (hfresh : Fresh c r T path)
    (herr : ∀ w' : World Disk Ask Answer, Partial T path r.size w' → err w')
    (hw : w.disk = ⟨T.set path (.file []), S⟩) :
    Ends good (fill digest c r path) w
      (fun out w' => out = output c r ∧ Filled digest c r T path S w'.disk) err := by
  have hstart : ∀ {w' : World Disk Ask Answer}, w'.disk = w.disk → err w' := by
    intro w' h
    exact herr w' ⟨[], by rw [h, hw], Nat.zero_le _⟩
  refine (ends_step _ fun _ h => hstart h).bind fun _ w₁ h₁ => ?_
  refine (ends_copy herr (Nat.le_refl _) (Nat.zero_add _) (h₁.trans hw)).bind ?_
  rintro got w₂ ⟨_, S', hS, rfl, hlength, h₂⟩
  -- the whole artifact is in the temporary file when a later step fails
  have hkept : ∀ {w' : World Disk Ask Answer}, w'.disk.tree = T.set path (.file got) → err w' :=
    fun ht => herr _ ⟨got, ht, Nat.le_of_eq hlength⟩
  refine (ends_readStream (Nat.le_refl 1) fun w' h => hkept (by rw [h, h₂])).bind ?_
  rintro extra w₃ ⟨rest, hrest, h₃, -, hended⟩
  rw [h₂] at hrest h₃ hended
  dsimp only at hrest h₃ hended
  refine (ends_refuseIf (hkept (by rw [h₃]))).bind ?_
  rintro _ _ ⟨rfl, hnone⟩
  obtain rfl : extra = [] := by simpa using hnone
  obtain rfl : S' = [] := hended rfl
  obtain rfl : rest = [] := hrest.symm
  rw [List.append_nil] at hS
  subst hS
  refine (ends_refuseIf (hkept (by rw [h₃]))).bind ?_
  rintro _ _ ⟨rfl, hhash⟩
  rw [decide_eq_false_iff_not, not_not] at hhash
  refine (ends_step _ fun w' h => hkept (by rw [h, h₃])).bind fun _ w₄ h₄ => ?_
  refine (ends_step _ fun w' h => hkept (by rw [h, h₄, h₃])).bind fun _ w₅ h₅ => ?_
  refine (ends_step _ fun w' h => hkept (by rw [h, h₅, h₄, h₃])).bind fun _ w₆ h₆ => ?_
  refine (ends_step _ fun w' h => hkept (by rw [h, h₆, h₅, h₄, h₃])).bind fun _ w₇ h₇ => ?_
  have hdisk : w₇.disk = ⟨T.set path (.file S), []⟩ := by rw [h₇, h₆, h₅, h₄, h₃]
  refine ends_readStore.bind ?_
  rintro _ w₇ ⟨rfl, rfl⟩
  have hget : w₇.disk.tree.get? (output c r) = T.get? (output c r) := by
    rw [hdisk]
    exact Dict.get?_set_ne _ _ hfresh.ne
  rw [hget]
  cases houtput : T.get? (output c r) with
  | some node =>
      refine (ends_step _ fun w' h => hkept (by rw [h, hdisk])).bind fun _ w₈ h₈ => ?_
      cases node with
      | other => exact Ends.bind (.throw (hkept (by rw [h₈, hdisk])) : Ends good _ w₈ (fun _ _ => False) err) fun _ _ h => h.elim
      | file content =>
          have hcompare : Ends good (compareExisting digest r (.file content)) w₈ (fun _ w' =>
              w'.disk = w₈.disk ∧ content.length = r.size ∧ digest content = r.sha256) err := by
            refine (ends_step _ fun w' h => hkept (by rw [h, h₈, hdisk])).bind fun _ w₉ h₉ => ?_
            refine (ends_step _ fun w' h => hkept (by rw [h, h₉, h₈, hdisk])).bind fun _ w₁₀ h₁₀ => ?_
            refine (ends_refuseIf (hkept (by rw [h₁₀, h₉, h₈, hdisk]))).mono ?_ fun _ h => h
            rintro _ _ ⟨rfl, hsame⟩
            simp only [Bool.or_eq_false_iff, decide_eq_false_iff_not, not_not] at hsame
            exact ⟨h₁₀.trans h₉, hsame.1, hsame.2⟩
          refine hcompare.bind ?_
          rintro _ w₉ ⟨h₉, hcontent, hsha⟩
          have hlast : w₉.disk = ⟨T.set path (.file S), []⟩ := by rw [h₉, h₈, hdisk]
          exact .pure ⟨rfl, hlength, hhash, by rw [hlast], .inl ⟨content, houtput, hcontent, hsha, by rw [hlast]⟩⟩
  | none =>
      refine (ends_step _ fun w' h => hkept (by rw [h, hdisk])).bind fun _ w₈ h₈ => ?_
      refine (ends_modify _).bind ?_
      rintro _ _ rfl
      have hlink : (w₈.disk.link path (output c r)) =
          ⟨(T.set path (.file S)).set (output c r) (.file S), []⟩ := by
        rw [h₈, hdisk]
        unfold Disk.link
        simp
      refine .pure ⟨rfl, hlength, hhash, ?_, .inr ⟨houtput, ?_⟩⟩
      · rw [World.wrote_disk, hlink]
      · rw [World.wrote_disk, hlink]

/-! ## The clean-up -/

/-- Every call about the temporary file of this reception succeeded, and its identity stayed. -/
def OwnCalls (inode : Nat) (q : Ask) (a : Answer) : Prop :=
  ∀ call, q = .own call → a.raised = false ∧ a.inode = inode

/-- The temporary file is removed, unless a call about it fails: then it stays. -/
theorem ends_cleanUp {path : String} {owned : Nat}
    (herr : (∀ q a, good q a → OwnCalls owned q a) ∨
      ∀ w' : World Disk Ask Answer, w'.disk = w.disk → err w')
    (hpresent : (w.disk.tree.get? path).isSome) :
    Ends good (cleanUp path owned) w
      (fun _ w' => w'.disk = ⟨w.disk.tree.erase path, w.disk.stream⟩) err := by
  -- a call about the file that raises
  have hask : ∀ {α : Type} {get : Answer → α} {call : OwnCall} {w₁ : World Disk Ask Answer},
      w₁.disk = w.disk → Ends good (ask (reply get) (.own call) : Receiving α) w₁
        (fun b w' => w'.disk = w.disk ∧ ∃ a, good (.own call) a ∧ b = get a) err := by
    intro α get call w₁ h₁
    refine ends_reply (fun a ha _ => ⟨h₁, a, ha, rfl⟩) fun a ha hraised => ?_
    rcases herr with hgood | herr
    · have hquiet := (hgood _ a ha call rfl).1
      rw [hraised] at hquiet
      cases hquiet
    · exact herr _ h₁
  refine (hask rfl).bind ?_
  rintro _ w₁ ⟨h₁, -⟩
  refine ends_readStore.bind ?_
  rintro _ w₁ ⟨rfl, rfl⟩
  have hsome : (w₁.disk.tree.get? path).isNone = false := by
    rw [h₁]
    cases hget : w.disk.tree.get? path with
    | none =>
        rw [hget] at hpresent
        cases hpresent
    | some node => rfl
  rw [hsome]
  simp only [Bool.false_eq_true, if_false]
  refine (hask h₁).bind ?_
  rintro current w₂ ⟨h₂, a, ha, rfl⟩
  have hidentity : Ends good (refuseIf (a.inode ≠ owned)
      "owned incoming temporary identity changed; cleanup refused") w₂ (fun _ w' => w'.disk = w.disk) err := by
    unfold refuseIf
    split
    · next hne =>
      refine .throw ?_
      rcases herr with hgood | herr
      · exact absurd (hgood _ a ha _ rfl).2 (by simpa using hne)
      · exact herr _ h₂
    · exact .pure h₂
  refine hidentity.bind fun _ w₃ h₃ => ?_
  refine (hask h₃).bind ?_
  rintro _ w₄ ⟨h₄, -⟩
  refine (ends_modify _).mono ?_ fun _ h => h
  rintro _ _ rfl
  rw [World.wrote_disk, h₄]

theorem ends_ensure {α : Type} {x : Receiving α} {last : Receiving Unit}
    {ok mid : α → World Disk Ask Answer → Prop} {fail : World Disk Ask Answer → Prop}
    (hx : Ends good x w mid fail)
    (hok : ∀ a w₁, mid a w₁ → Ends good last w₁ (fun _ w' => ok a w') err)
    (hfail : ∀ w₁, fail w₁ → Ends good last w₁ (fun _ w' => err w') err) :
    Ends good (ensure x last) w ok err := by
  refine Under.bind hx fun result w₁ h₁ => ?_
  cases result with
  | ok a =>
      refine Under.bind (hok a w₁ h₁) fun ended w₂ h₂ => ?_
      cases ended with
      | ok _ => exact .ret h₂
      | error e => exact .ret h₂
  | error e =>
      refine Under.bind (hfail w₁ h₁) fun ended w₂ h₂ => ?_
      cases ended with
      | ok _ => exact .ret h₂
      | error e => exact .ret h₂

/-! ## The reception -/

/-- The tree has the same files, and is as large, as another. -/
structure SameFiles (T T' : Dict String Node) : Prop where
  get : ∀ p, T'.get? p = T.get? p
  total : T'.total Node.size = T.total Node.size

/-- A reception that returned: the stream was exactly the artifact and has ended; the output is a file of
    the declared size and digest, the one that was there if there was one; every other path is as it was,
    so no temporary file is left; and the budget is kept. -/
structure Accepted (digest : List UInt8 → String) (c : Config) (r : Request) (before after : Disk) :
    Prop where
  length : before.stream.length = r.size
  hash : digest before.stream = r.sha256
  ended : after.stream = []
  output : ∃ content, after.tree.get? (output c r) = some (.file content) ∧ content.length = r.size ∧
    digest content = r.sha256
  kept : before.tree.get? (Receiver.output c r) ≠ none →
    after.tree.get? (Receiver.output c r) = before.tree.get? (Receiver.output c r)
  others : ∀ p, p ≠ Receiver.output c r → after.tree.get? p = before.tree.get? p
  budget : (after.tree.total Node.size : Int) ≤ c.maximumStagingBytes

theorem sameFiles_erase {T : Dict String Node} {path : String} (h : T.get? path = none) (node : Node) :
    SameFiles T ((T.set path node).erase path) where
  get := by
    intro p
    by_cases hp : path = p
    · rw [← hp, Dict.get?_erase_self, h]
    · rw [Dict.get?_erase_ne _ hp, Dict.get?_set_ne _ _ hp]
  total := by
    have hset := Dict.total_set Node.size T path node
    have herase := Dict.total_erase Node.size (T.set path node) path
    rw [h] at hset
    rw [Dict.get?_set_self] at herase
    simp only [Option.map_none, Option.map_some, Option.getD_none, Option.getD_some] at hset herase
    omega

/-- The body returned and the temporary file is gone. -/
theorem accepted_of_filled {T : Dict String Node} {path : String} {S : List UInt8} {disk : Disk}
    (hfresh : Fresh c r T path) (hroom : (T.total Node.size + r.size : Int) ≤ c.maximumStagingBytes)
    (h : Filled digest c r T path S disk) :
    Accepted digest c r ⟨T, S⟩ ⟨disk.tree.erase path, disk.stream⟩ := by
  rcases h.tree with ⟨content, hget, hlength, hhash, htree⟩ | ⟨hnone, htree⟩
  · have hsame := sameFiles_erase hfresh.absent (.file S)
    rw [← htree] at hsame
    refine ⟨h.length, h.hash, h.ended, ⟨content, ?_, hlength, hhash⟩, fun _ => hsame.get _,
      fun p _ => hsame.get p, ?_⟩
    · exact (hsame.get _).trans hget
    · show ((disk.tree.erase path).total Node.size : Int) ≤ _
      rw [hsame.total]
      omega
  · -- the output is new: it is the temporary file under its own name
    have houtput : (disk.tree.erase path).get? (output c r) = some (.file S) := by
      rw [Dict.get?_erase_ne _ hfresh.ne, htree, Dict.get?_set_self]
    refine ⟨h.length, h.hash, h.ended, ⟨S, houtput, h.length, h.hash⟩, fun hc => absurd hnone hc, ?_, ?_⟩
    · intro p hp
      show (disk.tree.erase path).get? p = T.get? p
      by_cases hpath : path = p
      · rw [← hpath, Dict.get?_erase_self, hfresh.absent]
      · rw [Dict.get?_erase_ne _ hpath, htree, Dict.get?_set_ne _ _ hp.symm, Dict.get?_set_ne _ _ hpath]
    · have hset := Dict.total_set Node.size T path (.file S)
      have hlink := Dict.total_set Node.size (T.set path (.file S)) (output c r) (.file S)
      have herase := Dict.total_erase Node.size disk.tree path
      rw [Dict.get?_set_ne _ _ hfresh.ne, hnone] at hlink
      rw [htree, Dict.get?_set_ne _ _ hfresh.ne.symm, Dict.get?_set_self] at herase
      rw [hfresh.absent] at hset
      simp only [Option.map_none, Option.map_some, Option.getD_none, Option.getD_some, Node.size] at hset hlink herase
      have hsize := h.length
      show ((disk.tree.erase path).total Node.size : Int) ≤ _
      rw [htree]
      omega

/-- **A reception**, for a predicate of failures that every tree with the same files satisfies. -/
theorem ends_receive (hsame : ∀ w' : World Disk Ask Answer, SameFiles w.disk.tree w'.disk.tree → err w')
    (hstuck : (∃ inode, ∀ q a, good q a → OwnCalls inode q a) ∨
      ∀ w' : World Disk Ask Answer, (∀ node, w.disk.tree.get? (output c r) = some node →
        w'.disk.tree.get? (output c r) = some node) → err w') :
    Ends good (receive digest c r) w
      (fun out w' => out = output c r ∧ Accepted digest c r w.disk w'.disk) err := by
  refine (ends_prepare fun w' h => hsame w' ⟨fun p => by rw [h], by rw [h]⟩).bind ?_
  rintro path w₁ ⟨hfresh, h₁, hroom⟩
  -- the output stays where only the temporary file changes
  have hkept : ∀ {T' : Dict String Node} {got : List UInt8}, T' = w.disk.tree.set path (.file got) →
      ∀ node, w.disk.tree.get? (output c r) = some node → T'.get? (output c r) = some node := by
    rintro _ got rfl node hnode
    rw [Dict.get?_set_ne _ _ hfresh.ne]
    exact hnode
  have hown : ∀ {owned : Nat} {w₁ : World Disk Ask Answer},
      w₁.disk = ⟨w.disk.tree.set path (.file []), w.disk.stream⟩ →
      ((∀ q a, good q a → OwnCalls owned q a) ∨
        ∀ w' : World Disk Ask Answer, (∀ node, w.disk.tree.get? (output c r) = some node →
          w'.disk.tree.get? (output c r) = some node) → err w') →
      Ends good (ensure (fill digest c r path) (cleanUp path owned)) w₁
        (fun out w' => out = output c r ∧ Accepted digest c r w.disk w'.disk) err := by
    intro owned w₁ h₁ hown
    have hclean : ∀ {w₂ : World Disk Ask Answer}, (w₂.disk.tree.get? path).isSome →
        (∀ node, w.disk.tree.get? (output c r) = some node →
          w₂.disk.tree.get? (output c r) = some node) →
        Ends good (cleanUp path owned) w₂
          (fun _ w' => w'.disk = ⟨w₂.disk.tree.erase path, w₂.disk.stream⟩) err := by
      intro w₂ hpresent houtput
      refine ends_cleanUp ?_ hpresent
      rcases hown with hgood | herr
      · exact .inl hgood
      · exact .inr fun w' h => herr w' (by rw [h]; exact houtput)
    refine ends_ensure (ends_fill hfresh (fun _ h => h) h₁) ?_ ?_
    · rintro out w₂ ⟨rfl, hfilled⟩
      have hpresent : (w₂.disk.tree.get? path).isSome := by
        rcases hfilled.tree with ⟨_, -, -, -, htree⟩ | ⟨-, htree⟩
        · rw [htree, Dict.get?_set_self]
          rfl
        · rw [htree, Dict.get?_set_ne _ _ hfresh.ne.symm, Dict.get?_set_self]
          rfl
      have houtput : ∀ node, w.disk.tree.get? (output c r) = some node →
          w₂.disk.tree.get? (output c r) = some node := by
        rcases hfilled.tree with ⟨_, -, -, -, htree⟩ | ⟨hnone, -⟩
        · exact hkept htree
        · intro node hnode
          rw [hnone] at hnode
          cases hnode
      refine (hclean hpresent houtput).mono (fun _ w' h => ⟨rfl, ?_⟩) fun _ h => h
      rw [h]
      exact accepted_of_filled hfresh hroom hfilled
    · rintro w₂ ⟨got, htree, -⟩
      have hpresent : (w₂.disk.tree.get? path).isSome := by
        rw [htree, Dict.get?_set_self]
        rfl
      refine (hclean hpresent (hkept htree)).mono (fun _ w' h => hsame w' ?_) fun _ h => h
      rw [h, htree]
      exact sameFiles_erase hfresh.absent (.file got)
  rcases hstuck with ⟨inode, hgood⟩ | herr
  · -- the identity that was read is the one that every later answer has
    have hfstat : Ends good (ask (reply Answer.inode) (.own .fstat) : Receiving Nat) w₁
        (fun owned w' => owned = inode ∧ w'.disk = w₁.disk) err := by
      refine ends_reply (fun a ha _ => ⟨(hgood _ a ha _ rfl).2, rfl⟩) fun a ha hraised => ?_
      have hquiet := (hgood _ a ha _ rfl).1
      rw [hraised] at hquiet
      cases hquiet
    refine hfstat.bind ?_
    rintro _ w₂ ⟨rfl, h₂⟩
    exact hown (h₂.trans h₁) (.inl hgood)
  · refine (ends_measure fun w' h => herr w' ?_).bind fun owned w₂ h₂ => hown (h₂.trans h₁) (.inr herr)
    rw [h, h₁]
    exact hkept rfl

/-! ## The claim -/

/-- **The receiver**, for any tree, stream and failures. A return is of an accepted artifact. What was at
    the output path stays, whatever happens. And where the calls about the temporary file itself succeed,
    a reception that raises leaves every path as it was, so the output path and the budget are unchanged
    and no temporary file is left. -/
theorem receive_exact (digest : List UInt8 → String) (c : Config) (r : Request) (before : Disk)
    (w : World Disk Ask Answer) (result : Except Stop String)
    (hrun : Runs (receive digest c r).run ⟨before, []⟩ w (some result)) :
    (∀ out, result = .ok out → out = output c r ∧ Accepted digest c r before w.disk) ∧
      (∀ node, before.tree.get? (output c r) = some node → w.disk.tree.get? (output c r) = some node) ∧
      (∀ inode, AllGood (OwnCalls inode) w.hist → (∀ out, result ≠ .ok out) →
        SameFiles before.tree w.disk.tree) := by
  refine ⟨?_, ?_, ?_⟩
  · rintro out rfl
    have h : Ends (fun _ _ => True) (receive digest c r) ⟨before, []⟩ _ (fun _ => True) :=
      ends_receive (fun _ _ => trivial) (.inr fun _ _ => trivial)
    exact h hrun fun _ _ _ => trivial
  · have h : Ends (fun _ _ => True) (receive digest c r) ⟨before, []⟩ _ (fun w' => ∀ node,
        before.tree.get? (output c r) = some node → w'.disk.tree.get? (output c r) = some node) :=
      ends_receive (fun w' hs node hnode => (hs.get _).trans hnode) (.inr fun _ hkept => hkept)
    have hend := h hrun fun _ _ _ => trivial
    cases result with
    | error e => exact hend
    | ok out =>
        intro node hnode
        rw [← hnode]
        exact hend.2.kept (by rw [hnode]; simp)
  · intro inode hgood hraised
    have h : Ends (OwnCalls inode) (receive digest c r) ⟨before, []⟩ _
        (fun w' => SameFiles before.tree w'.disk.tree) :=
      ends_receive (fun _ hs => hs) (.inl ⟨inode, fun _ _ h => h⟩)
    have hend := h hrun hgood
    cases result with
    | error e => exact hend
    | ok out => exact absurd rfl (hraised out)

end Received

/-! ## Two receptions -/

def sha256 (bytes : List UInt8) : String := Sha256.hexdigest ⟨bytes.toArray⟩

def smallConfig : Config := ⟨"/staging", 1000, 10⟩

/-- An artifact of two bytes. -/
def smallRequest : Request where
  target := "api"
  commit := "c0"
  sha256 := "a12871fee210fb8619291eaea194581cbd2531e4b23759d225f6806923f63222"
  size := 2

def smallUpload : Disk := ⟨.empty, [1, 2]⟩

/-- Everything succeeds, and a read returns one byte. -/
def calmAnswer : Answer where
  free := 5000
  name := "k3"
  chunk := 1
  inode := 7

/-- The reception of the upload on given answers. -/
def smallRun (answers : List Answer) : World Disk Ask Answer × Option (Except Stop String) :=
  (receive sha256 smallConfig smallRequest).run.exec 60 ⟨smallUpload, []⟩ answers

theorem receive_exact_small :
    Accepted sha256 smallConfig smallRequest smallUpload (smallRun (.replicate 21 calmAnswer)).1.disk := by
  have hrun := runs_exec (receive sha256 smallConfig smallRequest).run 60 ⟨smallUpload, []⟩
    (.replicate 21 calmAnswer)
  have hreturned : (smallRun (.replicate 21 calmAnswer)).2 =
      some (.ok (output smallConfig smallRequest)) := by decide +kernel
  have h := receive_exact sha256 smallConfig smallRequest smallUpload
    (smallRun (.replicate 21 calmAnswer)).1 (.ok (output smallConfig smallRequest)) (hreturned ▸ hrun)
  exact (h.1 _ rfl).2

/-- The identity of the temporary file is read as another one before it is removed: the reception raises,
    with the output linked and the temporary file still there. -/
theorem receive_raises_after_link :
    (smallRun (.replicate 19 calmAnswer ++ [{ calmAnswer with inode := 8 }])).2 =
        some (.error (.refusal "owned incoming temporary identity changed; cleanup refused")) ∧
      smallUpload.tree.get? (output smallConfig smallRequest) = none ∧
      (smallRun (.replicate 19 calmAnswer ++ [{ calmAnswer with inode := 8 }])).1.disk.tree.get?
        (output smallConfig smallRequest) = some (.file [1, 2]) ∧
      (smallRun (.replicate 19 calmAnswer ++ [{ calmAnswer with inode := 8 }])).1.disk.tree.get?
        (folder smallConfig smallRequest ++ "/.incoming-k3") = some (.file [1, 2]) := by
  decide +kernel

end Receiver
end PickleInfra
