import PickleInfra.Discord.Appended

/-!
# `Discord.Alternation` — the events of a plain source alternate

As long as every run takes a key for one of a plain source, its events alternate, starting with an
alarm, with increasing sequence numbers, and its unresolved items stand in the order of these. The
cursor says whose turn it is.
-/

namespace PickleInfra
namespace Discord

open Python Durable History

/-- Both identities are of the key, and the first has the smaller sequence number. -/
def ItemId.Before (key : Key) (i j : ItemId) : Prop :=
  ∃ m n, i = .event key m ∧ j = .event key n ∧ m < n

instance (key : Key) (i j : ItemId) : Decidable (ItemId.Before key i j) :=
  match i, j with
  | .event k m, .event k' n => decidable_of_iff (k = key ∧ k' = key ∧ m < n) (by
      constructor
      · rintro ⟨rfl, rfl, hlt⟩; exact ⟨m, n, rfl, rfl, hlt⟩
      · rintro ⟨_, _, ⟨⟩, ⟨⟩, hlt⟩; exact ⟨rfl, rfl, hlt⟩)
  | .connectionTest, _ => isFalse (by rintro ⟨_, _, ⟨⟩, _⟩)
  | .event .., .connectionTest => isFalse (by rintro ⟨_, _, _, ⟨⟩, _⟩)

theorem ItemId.Before.asymm {key : Key} {i j : ItemId} (h : ItemId.Before key i j) :
    ¬ ItemId.Before key j i := by
  rintro ⟨n, m, hj, hi, hlt⟩
  obtain ⟨m', n', hi', hj', hlt'⟩ := h
  cases hi.symm.trans hi'
  cases hj.symm.trans hj'
  exact absurd hlt (Nat.not_lt.mpr hlt'.le)

/-- What the `n`-th event of a plain key is, counted from 0. -/
def turn (n : Nat) : Signal := if n % 2 = 0 then .alarm else .normal

/-- The events of a key, newest first, alternate with increasing sequence numbers. -/
def Alternates (key : Key) : List Item → Prop
  | []            => True
  | item :: older => item.content.signal = some (turn older.length) ∧
      (∃ n, item.id = .event key n ∧ ∀ i ∈ older, ∃ m < n, i.id = .event key m) ∧
      Alternates key older

/-- Every run takes the key for one of a plain source. -/
def PlainKey (key : Key) (x : RunInput) : Prop :=
  ∀ source ∈ x.config.sources, source.name = key.1 → source.kind.isService = false

/-- Not yet `SENT` or `SUPERSEDED`. -/
def Item.unresolved (item : Item) : Bool :=
  !decide (item.delivery = .sent ∨ item.delivery = .superseded)

theorem pruned_unresolved {items items' : List Item} (h : View.Pruned items items') :
    items'.filter Item.unresolved = items.filter Item.unresolved := by
  obtain ⟨kept, hkept, rfl⟩ := h
  have hnil : kept.filter Item.unresolved = [] := List.filter_eq_nil_iff.mpr fun i hi => by
    have hresolved := (List.mem_filter.mp (hkept.subset hi)).2
    simp only [Item.unresolved, hresolved, Bool.not_true, Bool.false_eq_true, not_false_eq_true]
  rw [List.filter_append, hnil, List.append_nil, List.filter_filter]
  exact List.filter_congr fun i _ => by simp [Item.unresolved]

/-- The status of the cursor after `n` events. -/
def CursorTurn (cursor : Option Cursor) (n : Nat) : Prop :=
  match cursor with
  | none   => n = 0
  | some c => c.report = none ∧ c.status = if n % 2 = 0 then .normal else .alarm

/-- Items of a plain key. -/
structure PlainItems (key : Key) (items : List Item) : Prop where
  plain : ∀ item ∈ items, item.service = none ∧ ∃ n, item.id = .event key n
  order : ((items.filter Item.unresolved).map Item.id).Pairwise (ItemId.Before key)

structure InTurn (key : Key) (k : KeyWorld) : Prop where
  seen : k.Seen
  items : PlainItems key k.view.items
  alternates : Alternates key (appended k.hist)
  cursor : CursorTurn k.view.cursor (appended k.hist).length
  issued : ∀ item ∈ appended k.hist, k.view.Issued item.id ∧ ∃ n, item.id = .event key n

/-! ## Items -/

namespace PlainItems

variable {key : Key} {items items' done rest : List Item} {item item' : Item}

theorem pruned (h : PlainItems key items) (hp : View.Pruned items items') : PlainItems key items' :=
  ⟨fun i hi => h.plain i (mem_of_pruned hp hi), by rw [pruned_unresolved hp]; exact h.order⟩

/-- Replacing an unresolved item by one with the same identity. -/
theorem replace (h : PlainItems key (done ++ item :: rest)) (hu : item.unresolved = true)
    (hid : item'.id = item.id) (hservice : item'.service = none) :
    PlainItems key (done ++ item' :: rest) := by
  constructor
  · intro i hi
    rcases List.mem_append.mp hi with hi | hi
    · exact h.plain i (List.mem_append_left _ hi)
    rcases List.mem_cons.mp hi with rfl | hi
    · exact ⟨hservice, hid ▸ (h.plain item (by simp)).2⟩
    · exact h.plain i (List.mem_append_right _ (List.mem_cons_of_mem _ hi))
  · have horder := h.order
    rw [List.filter_append, List.filter_cons_of_pos hu, List.map_append, List.map_cons] at horder
    rw [List.filter_append, List.map_append]
    by_cases hu' : item'.unresolved = true
    · rw [List.filter_cons_of_pos hu', List.map_cons, hid]
      exact horder
    · rw [List.filter_cons_of_neg hu']
      exact horder.sublist ((List.Sublist.refl _).append (List.sublist_cons_self _ _))

/-- A new item comes last. -/
theorem append (h : PlainItems key items) {n : Nat} (hid : item.id = .event key n)
    (hservice : item.service = none) (hnew : ∀ i ∈ items, ∃ m < n, i.id = .event key m) :
    PlainItems key (items ++ [item]) := by
  constructor
  · intro i hi
    rcases List.mem_append.mp hi with hi | hi
    · exact h.plain i hi
    · rw [List.mem_singleton.mp hi]; exact ⟨hservice, n, hid⟩
  · rw [List.filter_append, List.map_append]
    refine List.pairwise_append.mpr ⟨h.order, ?_, ?_⟩
    · by_cases hu : item.unresolved = true
      · rw [List.filter_cons_of_pos hu]; simp
      · rw [List.filter_cons_of_neg hu]; simp
    · intro a ha b hb
      obtain ⟨i, hi, rfl⟩ := List.mem_map.mp ha
      obtain ⟨j, hj, rfl⟩ := List.mem_map.mp hb
      have hj' : j = item := List.mem_singleton.mp (List.mem_filter.mp hj).1
      obtain ⟨m, hlt, hm⟩ := hnew i (List.mem_filter.mp hi).1
      exact ⟨m, n, hm, hj' ▸ hid, hlt⟩

end PlainItems

theorem remember_of_plain {item : Item} (h : item.service = none) (cursor : Cursor) :
    cursor.remember item = cursor := by
  unfold Cursor.remember
  rw [h]

/-! ## Runs -/

namespace InTurn

variable {key : Key} {k : KeyWorld} {done rest : List Item} {item item' : Item}

theorem start (key : Key) : InTurn key .start :=
  ⟨seen_start, ⟨by simp [KeyWorld.start], by simp [KeyWorld.start]⟩, trivial, rfl,
    by simp [KeyWorld.start]⟩

theorem cursor_replace (h : InTurn key k) (hsplit : k.view.items = done ++ item :: rest)
    (hservice : item'.service = item.service) :
    (k.view.replace done item' rest).cursor = k.view.cursor := by
  have hnone : item'.service = none :=
    hservice.trans (h.items.plain item (hsplit ▸ List.mem_append_right _ List.mem_cons_self)).1
  rw [replace_cursor, funext (remember_of_plain hnone)]
  exact Option.map_id'

theorem replace (h : InTurn key k) (hsplit : k.view.items = done ++ item :: rest)
    (hu : item.unresolved = true) (hid : item'.id = item.id) (hservice : item'.service = item.service) :
    InTurn key (k.saved (k.view.replace done item' rest)) := by
  have hitems := h.items
  rw [hsplit] at hitems
  have happended := appended_replace h.seen hsplit hid
  refine ⟨rfl, hitems.replace hu hid (hservice.trans (hitems.plain item (by simp)).1),
    happended ▸ h.alternates, ?_, ?_⟩
  · rw [happended, saved_view, h.cursor_replace hsplit hservice]; exact h.cursor
  · intro i hi
    rw [happended] at hi
    exact ⟨(issued_replace _).mpr (h.issued i hi).1, (h.issued i hi).2⟩

theorem called (h : InTurn key k) (q : Post) (a : Option Outcome) : InTurn key (k.called q a) :=
  ⟨h.seen, h.items, h.alternates, h.cursor, h.issued⟩

/-- **Each move of a run** keeps the turn, and the cursor. -/
theorem move (h : InTurn key k) {x : RunInput} {eligible : List ItemId} {k' : KeyWorld}
    (hm : KeyMove x eligible k k') : InTurn key k' ∧ k'.view.cursor = k.view.cursor := by
  have hput : ∀ {done rest : List Item} {item item' : Item},
      k.view.items = done ++ item :: rest → item.unresolved = true → item'.id = item.id →
      item'.service = item.service → InTurn key (k.saved (k.view.replace done item' rest)) ∧
        (k.view.replace done item' rest).cursor = k.view.cursor :=
    fun hsplit hu hid hservice =>
      ⟨h.replace hsplit hu hid hservice, h.cursor_replace hsplit hservice⟩
  have hclaim : ∀ {done rest : List Item} {item : Item}, Due x eligible k.view done item rest →
      InTurn key (k.claim done item rest) ∧ (k.claim done item rest).view.cursor = k.view.cursor :=
    fun hdue => hput hdue.split (by simp [Item.unresolved, (tries_pending hdue.tries).1]) rfl rfl
  cases hm with
  | saved =>
      obtain ⟨hseen, happended⟩ := appended_move h.seen (@KeyMove.saved x eligible k)
      exact ⟨⟨hseen, h.items, happended ▸ h.alternates, happended ▸ h.cursor,
        happended ▸ h.issued⟩, rfl⟩
  | settled hsplit hitem => exact hput hsplit (by simp [Item.unresolved, hitem]) rfl rfl
  | exhausted hsplit hitem => exact hput hsplit (by simp [Item.unresolved, hitem]) rfl rfl
  | claimed hdue => exact hclaim hdue
  | called hdue answer => exact ⟨(hclaim hdue).1.called _ _, (hclaim hdue).2⟩
  | @recorded done rest item hdue outcome =>
      have hcalled := (hclaim hdue).1.called ⟨item.claimed, x.now⟩ (some outcome)
      have hservice : (item.claimed.recorded x.now outcome).service = item.claimed.service :=
        recorded_service _ _ _
      rw [← replace_claimed]
      exact ⟨hcalled.replace rfl
          (by simp [Item.unresolved, Item.claimed]) (recorded_id _ _ _) hservice,
        (hcalled.cursor_replace rfl hservice).trans (hclaim hdue).2⟩

/-- An observation that queues nothing and leaves the cursor, on a pruned view. -/
theorem quiet (h : InTurn key k) {v : View} (hprune : PrunedView k.view v) :
    InTurn key (k.saved v) ∧ appended (k.saved v).hist = appended k.hist := by
  have happended : appended (k.saved v).hist = appended k.hist :=
    appended_first_none h.seen hprune (fun item => rfl) (List.map_id v.items).symm
  refine ⟨⟨rfl, h.items.pruned hprune.items, happended ▸ h.alternates, ?_, ?_⟩, happended⟩
  · rw [happended, saved_view, hprune.cursor]; exact h.cursor
  · intro i hi
    rw [happended] at hi
    obtain ⟨hissued, n, hn⟩ := h.issued i hi
    refine ⟨?_, n, hn⟩
    rw [hn] at hissued ⊢
    simpa [View.Issued, hprune.cursor] using hissued

/-- A first `NORMAL` keeps the turn. -/
theorem baseline (h : InTurn key k) {v : View} (hprune : PrunedView k.view v)
    (hnone : k.view.cursor = none) (sequence : Nat) :
    InTurn key (k.saved { v with cursor := some ⟨.normal, sequence, none, none⟩ }) := by
  have hturn := h.cursor
  rw [hnone] at hturn
  have hempty : appended k.hist = [] := List.length_eq_zero_iff.mp hturn
  have happended : appended (k.saved { v with cursor := some ⟨.normal, sequence, none, none⟩ }).hist =
      [] := (appended_first_none h.seen hprune (fun item => rfl) (List.map_id v.items).symm).trans hempty
  refine ⟨rfl, h.items.pruned hprune.items, ?_, ?_, ?_⟩
  · rw [happended]; trivial
  · rw [happended]; exact ⟨rfl, rfl⟩
  · rw [happended]; simp

/-- A signal that is news takes its turn. -/
theorem turn_of_news {current : Signal} {cursor : Option Cursor} {n : Nat} (h : CursorTurn cursor n)
    (hskip : ¬ (current = .unknown ∨ cursor.map Cursor.status = some current))
    (hquiet : ¬ (cursor.isNone ∧ current = .normal)) : current = turn n := by
  rw [not_or] at hskip
  unfold turn
  cases cursor with
  | none =>
      rw [show n = 0 from h]
      cases current with
      | alarm => rfl
      | normal => exact absurd ⟨rfl, rfl⟩ hquiet
      | unknown => exact absurd rfl hskip.1
  | some c =>
      have hne : c.status ≠ current := fun he => hskip.2 (congrArg some he)
      rw [h.2] at hne
      rcases Nat.mod_two_eq_zero_or_one n with he | he
      · rw [if_pos he] at hne ⊢
        cases current with
        | alarm => rfl
        | normal => exact absurd rfl hne
        | unknown => exact absurd rfl hskip.1
      · rw [if_neg (by omega)] at hne ⊢
        cases current with
        | alarm => exact absurd rfl hne
        | normal => rfl
        | unknown => exact absurd rfl hskip.1

/-- An event keeps the turn. -/
theorem event (h : InTurn key k) (hledger : Ledger k) {v : View} (hprune : PrunedView k.view v)
    {n : Nat} (hn : (k.view.cursor.map Cursor.sequence).getD 0 = n) {content : Message} (now : ℚ)
    (hcontent : content.signal = some (turn (appended k.hist).length)) :
    InTurn key (k.saved { v with
      cursor := some ⟨turn (appended k.hist).length, n + 1, none, none⟩
      items := v.items ++ [newItem key (n + 1) content now none] }) := by
  have hlt : ∀ id m, k.view.Issued id → id = .event key m → m < n + 1 := by
    rintro id m hi rfl
    exact Nat.lt_succ_of_le (hn ▸ hi)
  have hfresh : ¬ k.view.Issued (.event key (n + 1)) := fun hi => absurd (hlt _ _ hi rfl) (lt_irrefl _)
  have happended : appended (k.saved { v with
      cursor := some ⟨turn (appended k.hist).length, n + 1, none, none⟩
      items := v.items ++ [newItem key (n + 1) content now none] }).hist =
        newItem key (n + 1) content now none :: appended k.hist :=
    appended_first_new h.seen hledger hprune (fun item => rfl)
      (by rw [List.map_id' v.items]) hfresh
  refine ⟨rfl, ?_, ?_, ?_, ?_⟩
  · refine (h.items.pruned hprune.items).append rfl rfl fun i hi => ?_
    have hi' := mem_of_pruned hprune.items hi
    obtain ⟨m, hm⟩ := (h.items.plain i hi').2
    exact ⟨m, hlt i.id m (hledger.items i hi').2 hm, hm⟩
  · rw [happended]
    refine ⟨hcontent, ⟨_, rfl, fun i hi => ?_⟩, h.alternates⟩
    obtain ⟨hissued, m, hm⟩ := h.issued i hi
    exact ⟨m, hlt i.id m hissued hm, hm⟩
  · rw [happended, List.length_cons]
    refine ⟨rfl, ?_⟩
    unfold turn
    rcases Nat.mod_two_eq_zero_or_one (appended k.hist).length with he | he
    · rw [if_pos he, if_neg (by omega)]
    · rw [if_neg (by omega), if_pos (by omega)]
  · intro i hi
    rw [happended] at hi
    rcases List.mem_cons.mp hi with rfl | hi
    · exact ⟨by simp [View.Issued], _, rfl⟩
    · obtain ⟨hissued, m, hm⟩ := h.issued i hi
      refine ⟨?_, m, hm⟩
      have hle := hlt i.id m hissued hm
      rw [hm]
      simpa [View.Issued] using hle.le

/-- **An observation** of the key keeps the turn. -/
theorem plain (h : InTurn key k) (hledger : Ledger k) {v : View} (hprune : PrunedView k.view v)
    (current : Signal) (content : Message) (hcontent : content.signal = some current) (now : ℚ) :
    InTurn key (k.saved (v.plain key current content now)) := by
  by_cases hskip : current = .unknown ∨ v.cursor.map Cursor.status = some current
  · rw [View.plain_skip hskip]; exact (h.quiet hprune).1
  by_cases hquiet : v.cursor.isNone ∧ current = .normal
  · rw [View.plain_baseline hskip hquiet, hquiet.2]
    exact h.baseline hprune (hprune.cursor.symm.trans (Option.isNone_iff_eq_none.mp hquiet.1)) _
  · rw [View.plain_event hskip hquiet]
    have hnews := turn_of_news (hprune.cursor ▸ h.cursor) hskip hquiet
    rw [hnews] at hcontent ⊢
    exact h.event hledger hprune (by rw [hprune.cursor]) now hcontent

/-- **The first write of a run** keeps the turn of a plain key. -/
theorem prepared (h : InTurn key k) (hledger : Ledger k) {x : RunInput} {v v' : View}
    (hx : PlainKey key x) (hprune : PrunedView k.view v) (hprepare : ViewPrepared x (some key) v v') :
    InTurn key (k.saved v') := by
  cases hprepare with
  | idle => exact (h.quiet hprune).1
  | test _ ho _ => cases ho
  | observed htest hsource hdim ho hobs =>
      cases ho
      rcases hobs with ⟨-, content, hcontent, rfl⟩ | ⟨hservice, -⟩
      · exact h.plain hledger hprune _ content hcontent _
      · rw [hx _ hsource rfl] at hservice; cases hservice

end InTurn

end Discord
end PickleInfra
