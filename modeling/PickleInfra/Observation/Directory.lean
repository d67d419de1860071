import PickleInfra.Observation.Operations

/-!
# `Observation.Directory` — a directory of files that may have several names

`_write` creates a temporary name, writes the file, and gives it its name by a link or a rename; a kill in between
leaves a name or two. A directory maps names to files. What the store sees of it is a listing with the number of names
of each file; what it holds is its `view`, the dictionary of the names that are not temporary. Where no temporary name
is left, the listing shows exactly the view (`listing_clean`); where one is left, no enumeration succeeds
(`entries_listing`).
-/

namespace PickleInfra
namespace Observation

open Python

/-! ## Names -/

/-- `.tmp-`, what the name of a temporary file begins with. -/
def temporaryPrefix : List Char := ['.', 't', 'm', 'p', '-']

def isTemporary (name : String) : Bool := temporaryPrefix.isPrefixOf name.toList

/-- `'.tmp-' + uuid4().hex` -/
def temporaryName (hex : String) : String := ".tmp-" ++ hex

@[simp] theorem isTemporary_temporaryName (hex : String) : isTemporary (temporaryName hex) = true := by
  unfold isTemporary temporaryName
  rw [String.toList_append, List.isPrefixOf_iff_prefix]
  exact List.prefix_append _ _

/-- The names of the store are not temporary. -/
theorem not_temporary {name : String} (h : Vocabulary name) : isTemporary name = false := by
  rcases h with rfl | h | ⟨k, rfl⟩
  · decide
  · have hall : ∀ n ∈ CONTROLS, isTemporary n = false := by decide
    exact hall name h
  · unfold isTemporary Key.name
    rw [String.toList_ofList]
    rfl

/-- A temporary name is no record, and neither the lock nor a control. -/
theorem rowOf_temporary (limits : Limits) {e : Entry} (h : isTemporary e.name = true) :
    rowOf limits e = .error .storeEntryInvalid := by
  have hother : ∀ name, Vocabulary name → e.name ≠ name := by
    rintro name hname rfl
    rw [not_temporary hname] at h
    cases h
  have hrecord : RECORD e.name = none := by
    cases hrecord : RECORD e.name with
    | none => rfl
    | some r =>
        obtain ⟨hex, digits⟩ := r
        obtain ⟨-, -, -, hname⟩ := RECORD_eq_some hrecord
        rw [hname] at h
        unfold isTemporary at h
        rw [String.toList_ofList] at h
        cases h
  have hcontrol : CONTROLS.contains e.name = false := by
    rw [← Bool.not_eq_true, List.contains_iff_mem]
    exact fun hmem => hother e.name (.inr (.inl hmem)) rfl
  unfold rowOf
  rw [if_neg (hother lockName (.inl rfl)), hcontrol, if_neg Bool.false_ne_true, hrecord]

/-! ## Directories -/

/-- The names with the files they name, what the files hold, and the next file. -/
structure Directory where
  names : Dict String Nat
  contents : Nat → List UInt8
  next : Nat

/-- The bytes of a file. -/
def Directory.bytes (d : Directory) (file : Nat) : ByteArray := ⟨(d.contents file).toArray⟩

/-- How many names a file has. -/
def Directory.links (d : Directory) (file : Nat) : Nat := (d.names.entries.filter (fun e => e.2 = file)).length

/-- What `scandir`, `open` and `fstat` show. -/
def Directory.listing (d : Directory) : Listing := d.names.entries.map fun e => ⟨e.1, d.links e.2, d.bytes e.2⟩

/-- An empty directory, with its lock file. -/
def Directory.start : Directory := ⟨Dict.empty.set lockName 0, fun _ => [], 1⟩

/-! ### System calls -/

/-- `os.open(name, O_CREAT | O_EXCL)` of a name that is not there. -/
def Directory.create (name : String) (d : Directory) : Directory :=
  { names := d.names.set name d.next, contents := fun i => if i = d.next then [] else d.contents i, next := d.next + 1 }

/-- `os.write` -/
def Directory.append (file : Nat) (chunk : List UInt8) (d : Directory) : Directory :=
  { d with contents := fun i => if i = file then d.contents i ++ chunk else d.contents i }

/-- `os.link` -/
def Directory.link (file : Nat) (name : String) (d : Directory) : Directory :=
  { d with names := d.names.set name file }

/-- `os.unlink` -/
def Directory.unlink (name : String) (d : Directory) : Directory := { d with names := d.names.erase name }

/-- `os.replace` -/
def Directory.rename (old : String) (file : Nat) (name : String) (d : Directory) : Directory :=
  { d with names := (d.names.erase old).set name file }

/-! ### The view -/

/-- The entries of the names that are not temporary. -/
def Directory.lasting (d : Directory) : List (String × Nat) := d.names.entries.filter fun e => !isTemporary e.1

theorem nodup_lasting (d : Directory) :
    ((d.lasting.map fun e => (e.1, d.bytes e.2)).map Prod.fst).Nodup := by
  rw [List.map_map]
  exact d.names.nodup.sublist (List.filter_sublist.map _)

/-- What the store holds: the contents by name. -/
def Directory.view (d : Directory) : Files := ⟨d.lasting.map fun e => (e.1, d.bytes e.2), nodup_lasting d⟩

/-- The names are names of the store or temporary, and two names of the store name two files. -/
structure Directory.Sound (d : Directory) : Prop where
  named : ∀ e ∈ d.names.entries, Vocabulary e.1 ∨ isTemporary e.1 = true
  fresh : ∀ e ∈ d.names.entries, e.2 < d.next
  single : ∀ e ∈ d.lasting, ∀ e' ∈ d.lasting, e.2 = e'.2 → e = e'

/-- No temporary name is left. -/
def Directory.Clean (d : Directory) : Prop := ∀ e ∈ d.names.entries, isTemporary e.1 = false

/-! ### Lasting names -/

section Lasting

variable {d : Directory}

theorem filter_assign_other {K V : Type} [DecidableEq K] {keep : K × V → Bool} {k : K} (h : ∀ v, keep (k, v) = false)
    (v : V) (l : List (K × V)) : (Dict.assign k v l).filter keep = l.filter keep := by
  induction l with
  | nil =>
      show List.filter keep [(k, v)] = []
      rw [List.filter_cons_of_neg (by rw [h]; exact Bool.false_ne_true), List.filter_nil]
  | cons e l ih =>
      unfold Dict.assign
      split
      · next heq =>
        subst heq
        rw [List.filter_cons_of_neg (by rw [h]; exact Bool.false_ne_true),
          List.filter_cons_of_neg (by rw [h e.2]; exact Bool.false_ne_true)]
      · rw [List.filter_cons, List.filter_cons, ih]

theorem filter_assign {K V : Type} [DecidableEq K] {keep : K × V → Bool} {k : K} (h : ∀ v, keep (k, v) = true)
    (v : V) (l : List (K × V)) : (Dict.assign k v l).filter keep = Dict.assign k v (l.filter keep) := by
  induction l with
  | nil =>
      show List.filter keep [(k, v)] = [(k, v)]
      rw [List.filter_cons_of_pos (h v), List.filter_nil]
  | cons e l ih =>
      rw [List.filter_cons]
      conv_lhs => unfold Dict.assign
      split
      · next heq =>
        subst heq
        rw [if_pos (h e.2), List.filter_cons_of_pos (h v)]
        conv_rhs => unfold Dict.assign
        rw [if_pos rfl]
      · next hne =>
        rw [List.filter_cons, ih]
        split
        · conv_rhs => unfold Dict.assign
          rw [if_neg hne]
        · rfl

theorem map_assign {K V W : Type} [DecidableEq K] (f : V → W) (k : K) (v : V) (l : List (K × V)) :
    (Dict.assign k v l).map (fun e => (e.1, f e.2)) = Dict.assign k (f v) (l.map fun e => (e.1, f e.2)) := by
  induction l with
  | nil => rfl
  | cons e l ih =>
      rw [List.map_cons]
      unfold Dict.assign
      split
      · rw [List.map_cons]
      · rw [List.map_cons, ih]

theorem mem_lasting {e : String × Nat} :
    e ∈ d.lasting ↔ e ∈ d.names.entries ∧ isTemporary e.1 = false := by
  unfold Directory.lasting
  rw [List.mem_filter, Bool.not_eq_true']

theorem lasting_set_temporary {name : String} (h : isTemporary name = true) (file : Nat) (names : Dict String Nat) :
    (names.set name file).entries.filter (fun e => !isTemporary e.1) = names.entries.filter fun e => !isTemporary e.1 :=
  filter_assign_other (fun _ => by rw [h]; rfl) _ _

theorem lasting_set {name : String} (h : isTemporary name = false) (file : Nat) (names : Dict String Nat) :
    (names.set name file).entries.filter (fun e => !isTemporary e.1)
      = Dict.assign name file (names.entries.filter fun e => !isTemporary e.1) :=
  filter_assign (fun _ => by rw [h]; rfl) _ _

theorem lasting_erase {name : String} (h : isTemporary name = true) (names : Dict String Nat) :
    (names.erase name).entries.filter (fun e => !isTemporary e.1) = names.entries.filter fun e => !isTemporary e.1 := by
  show (names.entries.filter _).filter _ = _
  rw [List.filter_filter]
  refine List.filter_congr fun e _ => ?_
  by_cases hname : e.1 = name
  · rw [hname, h]
    rfl
  · simp [hname]

theorem view_congr {d d' : Directory} (hlasting : d'.lasting = d.lasting)
    (hbytes : ∀ e ∈ d.lasting, d'.contents e.2 = d.contents e.2) : d'.view = d.view := by
  have hmap : (d'.lasting.map fun e => (e.1, d'.bytes e.2)) = d.lasting.map fun e => (e.1, d.bytes e.2) := by
    rw [hlasting]
    refine List.map_congr_left fun e he => ?_
    unfold Directory.bytes
    rw [hbytes e he]
  unfold Directory.view
  congr 1

end Lasting

/-! ### What a call does to the view -/

section Calls

variable {d : Directory} {name : String} {file : Nat}

theorem view_create (h : d.Sound) (hname : isTemporary name = true) : (d.create name).view = d.view := by
  refine view_congr (lasting_set_temporary hname _ _) fun e he => ?_
  have hne : e.2 ≠ d.next := Nat.ne_of_lt (h.fresh e (mem_lasting.mp he).1)
  exact if_neg hne

theorem view_append (h : ∀ e ∈ d.lasting, e.2 ≠ file) (chunk : List UInt8) : (d.append file chunk).view = d.view := by
  refine view_congr rfl fun e he => ?_
  exact if_neg (h e he)

theorem files_ext {a b : Files} (h : a.entries = b.entries) : a = b := by
  obtain ⟨entries, nodup⟩ := a
  cases h
  rfl

theorem view_of_lasting {d' : Directory} {l : List (String × Nat)} (hlasting : d'.lasting = l)
    (hbytes : d'.contents = d.contents) : d'.view.entries = l.map fun e => (e.1, d.bytes e.2) := by
  show d'.lasting.map _ = _
  rw [hlasting]
  refine List.map_congr_left fun e _ => ?_
  unfold Directory.bytes
  rw [hbytes]

theorem view_link (hname : isTemporary name = false) : (d.link file name).view = d.view.set name (d.bytes file) := by
  refine files_ext ?_
  have hlasting : (d.link file name).lasting = Dict.assign name file d.lasting := lasting_set hname file d.names
  rw [view_of_lasting hlasting rfl, map_assign]
  rfl

theorem view_rename {old : String} (hold : isTemporary old = true) (hname : isTemporary name = false) :
    (d.rename old file name).view = d.view.set name (d.bytes file) := by
  refine files_ext ?_
  have hlasting : (d.rename old file name).lasting = Dict.assign name file d.lasting := by
    refine (lasting_set hname file (d.names.erase old)).trans ?_
    rw [lasting_erase hold]
    rfl
  rw [view_of_lasting hlasting rfl, map_assign]
  rfl

theorem view_unlink_temporary (hname : isTemporary name = true) : (d.unlink name).view = d.view :=
  view_congr (lasting_erase hname d.names) fun _ _ => rfl

theorem view_unlink (d : Directory) (name : String) : (d.unlink name).view = d.view.erase name := by
  refine files_ext ?_
  show ((d.names.entries.filter _).filter _).map _ = ((d.names.entries.filter _).map _).filter _
  rw [List.filter_map, List.filter_filter, List.filter_filter]
  congr 1
  refine List.filter_congr fun e _ => ?_
  exact Bool.and_comm _ _

theorem Directory.Sound.create (h : d.Sound) (hname : isTemporary name = true) : (d.create name).Sound where
  named := by
    intro e he
    rcases Dict.mem_entries_set he with rfl | he
    · exact .inr hname
    · exact h.named e he
  fresh := by
    intro e he
    rcases Dict.mem_entries_set he with rfl | he
    · exact Nat.lt_succ_self _
    · exact Nat.lt_succ_of_lt (h.fresh e he)
  single := by
    have hlasting : (d.create name).lasting = d.lasting := lasting_set_temporary hname _ _
    rw [hlasting]
    exact h.single

theorem Directory.Sound.append (h : d.Sound) (file : Nat) (chunk : List UInt8) : (d.append file chunk).Sound :=
  ⟨h.named, h.fresh, h.single⟩

theorem Directory.Sound.unlink (h : d.Sound) (name : String) : (d.unlink name).Sound where
  named e he := h.named e (Dict.mem_entries_erase.mp he).1
  fresh e he := h.fresh e (Dict.mem_entries_erase.mp he).1
  single e he e' he' := by
    have hkept : ∀ x ∈ (d.unlink name).lasting, x ∈ d.lasting := by
      intro x hx
      obtain ⟨hin, hx⟩ := mem_lasting.mp hx
      exact mem_lasting.mpr ⟨(Dict.mem_entries_erase.mp hin).1, hx⟩
    exact h.single e (hkept e he) e' (hkept e' he')

/-- A file that no name of the store names can be given one. -/
theorem Directory.Sound.link (h : d.Sound) (hname : Vocabulary name) (hfile : file < d.next)
    (hfree : ∀ e ∈ d.lasting, e.2 ≠ file) : (d.link file name).Sound where
  named := by
    intro e he
    rcases Dict.mem_entries_set he with rfl | he
    · exact .inl hname
    · exact h.named e he
  fresh := by
    intro e he
    rcases Dict.mem_entries_set he with rfl | he
    · exact hfile
    · exact h.fresh e he
  single := by
    have hcases : ∀ x ∈ (d.link file name).lasting, x = (name, file) ∨ x ∈ d.lasting := by
      intro x hx
      obtain ⟨hin, hx⟩ := mem_lasting.mp hx
      exact (Dict.mem_entries_set hin).imp_right fun hin => mem_lasting.mpr ⟨hin, hx⟩
    intro e he e' he' heq
    rcases hcases e he with rfl | he
    · rcases hcases e' he' with rfl | he'
      · rfl
      · exact absurd heq.symm (hfree e' he')
    · rcases hcases e' he' with rfl | he'
      · exact absurd heq (hfree e he)
      · exact h.single e he e' he' heq

theorem Directory.Sound.rename {old : String} (h : d.Sound) (hname : Vocabulary name) (hfile : file < d.next)
    (hfree : ∀ e ∈ d.lasting, e.2 ≠ file) : (d.rename old file name).Sound := by
  refine (h.unlink old).link hname hfile fun e he => ?_
  obtain ⟨hin, hlasting⟩ := mem_lasting.mp he
  exact hfree e (mem_lasting.mpr ⟨(Dict.mem_entries_erase.mp hin).1, hlasting⟩)

theorem Directory.start_sound : Directory.start.Sound where
  named e he := by
    rcases Dict.mem_entries_set he with rfl | he
    · exact .inl (.inl rfl)
    · cases he
  fresh e he := by
    rcases Dict.mem_entries_set he with rfl | he
    · exact Nat.zero_lt_one
    · cases he
  single e he e' he' _ := by
    rcases Dict.mem_entries_set (mem_lasting.mp he).1 with rfl | he
    · rcases Dict.mem_entries_set (mem_lasting.mp he').1 with rfl | he'
      · rfl
      · cases he'
    · cases he

end Calls

/-! ### What the store sees -/

section Seen

variable {d : Directory}

theorem view_tidy (h : d.Sound) : Tidy d.view := by
  intro e he
  obtain ⟨x, hx, rfl⟩ := List.mem_map.mp he
  obtain ⟨hin, hlasting⟩ := mem_lasting.mp hx
  rcases h.named x hin with hname | htemporary
  · exact hname
  · rw [hlasting] at htemporary
    cases htemporary

/-- Where no temporary name is left, a file has one name. -/
theorem links_eq_one (h : d.Sound) (hclean : d.Clean) {e : String × Nat} (he : e ∈ d.names.entries) :
    d.links e.2 = 1 := by
  have hin : ∀ x ∈ d.names.entries, x ∈ d.lasting := fun x hx => mem_lasting.mpr ⟨hx, hclean x hx⟩
  have hnodup : d.names.entries.Nodup := List.Nodup.of_map _ d.names.nodup
  have hfilter : d.names.entries.filter (fun x => x.2 = e.2) = d.names.entries.filter fun x => x = e := by
    refine List.filter_congr fun x hx => ?_
    rw [decide_eq_decide]
    exact ⟨fun heq => h.single x (hin x hx) e (hin e he) heq, fun heq => congrArg Prod.snd heq⟩
  unfold Directory.links
  rw [hfilter, ← List.countP_eq_length_filter, ← List.count_eq_one_of_mem hnodup he]
  exact List.countP_congr fun x _ => by simp

/-- **Where no temporary name is left, the store sees what is there.** -/
theorem listing_clean (h : d.Sound) (hclean : d.Clean) : d.listing = shown d.view := by
  have hlasting : d.lasting = d.names.entries := by
    refine List.filter_eq_self.mpr fun e he => ?_
    rw [hclean e he]
    rfl
  unfold Directory.listing shown Directory.view
  dsimp only
  rw [hlasting, List.map_map]
  refine List.map_congr_left fun e he => ?_
  rw [links_eq_one h hclean he]
  rfl

theorem rowOf_of_scan {limits : Limits} {dir : Listing} {acc rows : List Row}
    (h : scan limits acc dir = .ok rows) : ∀ e ∈ dir, ∃ row, rowOf limits e = .ok row := by
  induction dir generalizing acc with
  | nil => exact fun e he => absurd he List.not_mem_nil
  | cons e dir ih =>
      rw [scan_cons] at h
      cases hrow : rowOf limits e with
      | error r =>
          rw [hrow] at h
          cases h
      | ok found =>
          rw [hrow] at h
          rw [List.forall_mem_cons]
          refine ⟨⟨found, hrow⟩, ?_⟩
          cases found with
          | none => exact ih h
          | some row =>
              dsimp only at h
              split at h
              · cases h
              · exact ih h

/-- **A temporary name that was left behind ends every enumeration.** -/
theorem clean_of_entries {limits : Limits} {rows : List Row} (h : entries limits d.listing = .ok rows) :
    d.Clean := by
  obtain ⟨records, hscan, -⟩ := bind_eq_ok.mp h
  intro e he
  obtain ⟨row, hrow⟩ := rowOf_of_scan hscan _ (List.mem_map_of_mem he)
  cases htemporary : isTemporary e.1 with
  | false => rfl
  | true =>
      rw [rowOf_temporary limits htemporary] at hrow
      cases hrow

theorem find?_listing (d : Directory) (name : String) :
    d.listing.find? (fun e => e.name = name) = (d.names.get? name).map fun i => ⟨name, d.links i, d.bytes i⟩ := by
  unfold Directory.listing Dict.get?
  induction d.names.entries with
  | nil => rfl
  | cons e es ih =>
      rw [List.map_cons, Dict.lookup]
      by_cases h : e.1 = name
      · rw [List.find?_cons_of_pos (by simp [h]), if_pos h, Option.map_some, h]
      · rw [List.find?_cons_of_neg (by simp [h]), if_neg h, ih]

theorem view_get? (d : Directory) {name : String} (h : isTemporary name = false) :
    d.view.get? name = (d.names.get? name).map d.bytes := by
  show Dict.lookup name (List.map _ (List.filter _ d.names.entries)) = (Dict.lookup name d.names.entries).map d.bytes
  induction d.names.entries with
  | nil => rfl
  | cons e es ih =>
      rw [Dict.lookup]
      by_cases hname : e.1 = name
      · rw [if_pos hname, List.filter_cons_of_pos (by rw [hname, h]; rfl), List.map_cons, Dict.lookup,
          if_pos hname]
        rfl
      · rw [if_neg hname, ← ih, List.filter_cons]
        split
        · rw [List.map_cons, Dict.lookup, if_neg hname]
        · rfl

/-- What is read under a name of the store is what is there. -/
theorem read_listing {name : String} (hname : isTemporary name = false) {limit : Nat} {r : Option ByteArray}
    (h : read d.listing name limit = .ok r) : read (shown d.view) name limit = .ok r := by
  unfold read at h
  rw [find?_listing] at h
  rw [read_eq_ok, view_get? d hname]
  cases hfile : d.names.get? name with
  | none =>
      rw [hfile] at h
      cases h
      exact ⟨rfl, fun _ hp => by cases hp⟩
  | some i =>
      rw [hfile] at h
      simp only [Option.map_some, bind_eq_ok, raiseIf_eq_ok, decide_eq_false_iff_not, not_lt, exists_const] at h
      obtain ⟨_, -, hsize, hr⟩ := h
      obtain rfl := Except.ok.inj hr
      exact ⟨rfl, fun p hp => by cases hp; exact hsize⟩

theorem entries_listing (h : d.Sound) {limits : Limits} {rows : List Row}
    (hrows : entries limits d.listing = .ok rows) : entries limits (shown d.view) = .ok rows := by
  rw [← listing_clean h (clean_of_entries hrows)]
  exact hrows

end Seen

/-! ### Operations on what the store sees -/

/-- What the operation returns on what the store sees, it returns on what is there. -/
def Seen {α : Type} (d : Directory) (op : Listing → Stored α) : Prop :=
  ∀ r, op d.listing = .ok r → op (shown d.view) = .ok r

section Operations

variable {α β : Type} {d : Directory} {T : FloatText} {s : Session}

theorem Seen.const (x : Stored α) : Seen d fun _ => x := fun _ h => h

theorem Seen.bind {x : Listing → Stored α} {f : α → Listing → Stored β} (hx : Seen d x)
    (hf : ∀ a, x (shown d.view) = .ok a → Seen d (f a)) : Seen d fun dir => x dir >>= fun a => f a dir := by
  intro r h
  obtain ⟨a, ha, hr⟩ := bind_eq_ok.mp h
  have ha' := hx a ha
  exact bind_eq_ok.mpr ⟨a, ha', hf a ha' r hr⟩

theorem Seen.mapM {f : β → Listing → Stored α} {bs : List β} (hf : ∀ b ∈ bs, Seen d (f b)) :
    Seen d fun dir => bs.mapM fun b => f b dir := by
  induction bs with
  | nil => exact .const _
  | cons b bs ih =>
      simp only [List.mapM_cons]
      obtain ⟨hb, hbs⟩ := List.forall_mem_cons.mp hf
      exact .bind hb fun a _ => .bind (ih hbs) fun as _ => .const _

theorem Seen.read {name : String} (h : isTemporary name = false) (limit : Nat) :
    Seen d fun dir => read dir name limit := fun _ hr => read_listing h hr

theorem Seen.entries (h : d.Sound) (limits : Limits) : Seen d fun dir => entries limits dir :=
  fun _ hr => entries_listing h hr

theorem not_temporary_key (k : Key) : isTemporary k.name = false := not_temporary (.inr (.inr ⟨k, rfl⟩))

theorem not_temporary_recordName {epoch sequence : Json} {name : String}
    (h : recordName epoch sequence = .ok name) : isTemporary name = false := by
  obtain ⟨k, -, rfl⟩ := recordName_eq_ok.mp h
  exact not_temporary_key k

theorem not_temporary_row (h : d.Sound) {limits : Limits} {rows : List Row}
    (hrows : entries limits (shown d.view) = .ok rows) {row : Row} (hrow : row ∈ rows) :
    isTemporary row.name = false := by
  obtain ⟨rfl, -⟩ := (entries_eq_ok (view_tidy h)).mp hrows
  obtain ⟨r, -, rfl⟩ := List.mem_map.mp hrow
  exact not_temporary_key r.1

theorem seen_put (h : d.Sound) (epoch sequence document : Json) :
    Seen d fun dir => put T s dir epoch sequence document := by
  unfold put
  refine .bind (.const _) fun name hname => .bind (.const _) fun payload _ => .bind (.const _) fun _ _ => ?_
  refine .bind (.read (not_temporary_recordName hname) _) fun found _ => ?_
  cases found with
  | some existing => exact .const _
  | none => exact .bind (.entries h _) fun records _ => .const _

theorem seen_pending (h : d.Sound) (limit : Int) (exclude : List (String × Int)) :
    Seen d fun dir => pending T s dir limit exclude := by
  unfold pending
  refine .bind (.const _) fun _ _ => .bind (.const _) fun _ _ => .bind (.const _) fun _ _ => ?_
  refine .bind (.entries h _) fun rows hrows => .mapM fun row hrow => ?_
  have hin : row ∈ rows := (List.mem_filter.mp (List.mem_of_mem_take hrow)).1
  unfold pendingRecord
  refine .bind (.read (not_temporary_row h hrows hin) _) fun found _ => ?_
  cases found with
  | none => exact .const _
  | some payload => exact .const _

theorem seen_stats (h : d.Sound) : Seen d fun dir => stats s dir := .bind (.entries h _) fun _ _ => .const _

theorem seen_get (epoch sequence : Json) : Seen d fun dir => get T s dir epoch sequence := by
  unfold get
  cases Key.of? epoch sequence with
  | none => exact .const _
  | some k =>
      refine .bind (.read (not_temporary_key k) _) fun found _ => ?_
      cases found with
      | none => exact .const _
      | some payload => exact .const _

theorem seen_ack (record : Record) : Seen d fun dir => ack s dir record := by
  unfold ack
  refine .bind (.const _) fun _ _ => .bind (.const _) fun name hname => .bind (.const _) fun _ hsame => ?_
  have hrecord : record.name = name := by
    rw [raiseIf_eq_ok, decide_eq_false_iff_not, not_not] at hsame
    exact hsame
  refine .bind (.read (hrecord ▸ not_temporary_recordName hname) _) fun found _ => ?_
  cases found with
  | none => exact .const _
  | some payload => exact .const _

theorem not_temporary_control {name : String}
    (h : raiseIf (!CONTROLS.contains name) StoreReason.controlNameInvalid = .ok ()) :
    isTemporary name = false := by
  rw [raiseIf_eq_ok, Bool.not_eq_false', List.contains_iff_mem] at h
  exact not_temporary (.inr (.inl h))

theorem seen_loadControl (name : String) : Seen d fun dir => loadControl T s dir name := by
  unfold loadControl
  refine .bind (.const _) fun _ hname => .bind (.read (not_temporary_control hname) _) fun found _ => ?_
  cases found with
  | none => exact .const _
  | some payload => exact .const _

theorem seen_saveControl (name : String) (value : Json) : Seen d fun dir => saveControl T s dir name value := by
  unfold saveControl
  refine .bind (.const _) fun _ hname => .bind (.const _) fun _ _ => .bind (.const _) fun _ _ => ?_
  exact .bind (.read (not_temporary_control hname) _) fun _ _ => .const _

end Operations

end Observation
end PickleInfra
