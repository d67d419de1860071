import Mathlib.Data.List.Perm.Subperm
import PickleInfra.Discord.Keys

/-!
# `Discord.Grown` — what the first write of a run does to the items of a key

Whatever a run observes, the first write keeps some items of a key, may mark unsent ones as
superseded, and appends at most one item, with a new identity. This is all that the bounds on
deliveries need to know of it.
-/

namespace PickleInfra
namespace Discord

open Python

/-! ## The prune -/

/-- The prune keeps items, each once. -/
theorem pruned_subperm {items items' : List Item} (h : View.Pruned items items') :
    items'.Subperm items := by
  obtain ⟨kept, hkept, rfl⟩ := h
  have hsub : (items.filter (fun i => !decide (i.delivery = .sent ∨ i.delivery = .superseded))
      ++ kept).Sublist
      (items.filter (fun i => !decide (i.delivery = .sent ∨ i.delivery = .superseded)) ++
        items.filter (fun i => decide (i.delivery = .sent ∨ i.delivery = .superseded))) :=
    (List.Sublist.refl _).append hkept.sublist
  refine hsub.subperm.trans (List.Perm.subperm ?_)
  exact List.perm_append_comm.trans (List.filter_append_perm _ _)

theorem mem_of_pruned {items items' : List Item} (h : View.Pruned items items') {item : Item}
    (hm : item ∈ items') : item ∈ items := (pruned_subperm h).subset hm

theorem nodup_of_pruned {items items' : List Item} (h : View.Pruned items items')
    (hn : (items.map Item.id).Nodup) : (items'.map Item.id).Nodup := by
  obtain ⟨l, hperm, hsub⟩ := pruned_subperm h
  exact (hperm.map _).nodup_iff.mp (hn.sublist (hsub.map _))

/-- An unresolved item survives the prune. -/
theorem mem_pruned {items items' : List Item} (h : View.Pruned items items') {item : Item}
    (hm : item ∈ items) (hs : item.delivery ≠ .sent) (hp : item.delivery ≠ .superseded) :
    item ∈ items' := by
  obtain ⟨kept, -, rfl⟩ := h
  exact List.mem_append_left _ (List.mem_filter.mpr ⟨hm, by simp [hs, hp]⟩)

/-! ## Identities -/

/-- The identity has been given away. -/
def View.Issued (v : View) : ItemId → Prop
  | .connectionTest => v.tested = true
  | .event _ n      => n ≤ (v.cursor.map Cursor.sequence).getD 0

@[simp] theorem remember_sequence (cursor : Cursor) (item : Item) :
    (cursor.remember item).sequence = cursor.sequence := by
  unfold Cursor.remember
  split
  · split
    · split <;> rfl
    · rfl
  · rfl

@[simp] theorem remember_status (cursor : Cursor) (item : Item) :
    (cursor.remember item).status = cursor.status := by
  unfold Cursor.remember
  split
  · split
    · split <;> rfl
    · rfl
  · rfl

@[simp] theorem remember_report (cursor : Cursor) (item : Item) :
    (cursor.remember item).report = cursor.report := by
  unfold Cursor.remember
  split
  · split
    · split <;> rfl
    · rfl
  · rfl

theorem issued_replace {v : View} {done : List Item} {item : Item} {rest : List Item} (id : ItemId) :
    (v.replace done item rest).Issued id ↔ v.Issued id := by
  cases id with
  | connectionTest => exact Iff.rfl
  | event key n => cases hc : v.cursor <;> simp [View.Issued, hc]

/-! ## Superseding -/

/-- The item itself, or the item marked as superseded while it was pending. -/
def Item.Aged (item item' : Item) : Prop :=
  item' = item ∨ (item.delivery = .pending ∧
    ∃ code, item' = { item with delivery := .superseded, code := some code })

theorem superseded_aged (report : ServiceReport) (item : Item) :
    item.Aged (item.superseded report) := by
  unfold Item.superseded
  split
  · next hd _ =>
    split
    · exact .inr ⟨hd, _, rfl⟩
    · split
      · exact .inr ⟨hd, _, rfl⟩
      · exact .inl rfl
  · exact .inl rfl

namespace Item.Aged

variable {item item' : Item}

theorem id (h : item.Aged item') : item'.id = item.id := by
  rcases h with rfl | ⟨-, _, rfl⟩ <;> rfl

theorem attempts (h : item.Aged item') : item'.attempts = item.attempts := by
  rcases h with rfl | ⟨-, _, rfl⟩ <;> rfl

theorem eq_of_pending (h : item.Aged item') (hp : item'.delivery = .pending) : item' = item := by
  rcases h with rfl | ⟨-, _, rfl⟩
  · rfl
  · simp at hp

end Item.Aged

/-! ## The first write -/

/-- How a first write changes a pruned view. -/
structure Grown (v v' : View) : Prop where
  items : ∃ f : Item → Item, (∀ item, Item.Aged item (f item)) ∧
    (v'.items = v.items.map f ∨ ∃ item, v'.items = v.items.map f ++ [item] ∧
      item.delivery = .pending ∧ item.attempts = 0 ∧ ¬ v.Issued item.id ∧ v'.Issued item.id)
  issued : ∀ id, v.Issued id → v'.Issued id

section Grown

variable {x : RunInput} {o : Option Key} {v v' : View}

theorem grown_refl (v : View) : Grown v v :=
  ⟨⟨id, fun _ => .inl rfl, .inl (List.map_id _).symm⟩, fun _ h => h⟩

theorem issued_of_sequence {v v' : View} {cursor : Cursor} (hc : v'.cursor = some cursor)
    (ht : v'.tested = v.tested) (hs : (v.cursor.map Cursor.sequence).getD 0 ≤ cursor.sequence)
    (id : ItemId) (h : v.Issued id) : v'.Issued id := by
  cases id with
  | connectionTest => exact ht.trans h
  | event key n => simp only [View.Issued, hc, Option.map_some, Option.getD_some]; exact h.trans hs

theorem grown_plain (key : Key) (current : Signal) (content : Message) :
    Grown v (v.plain key current content x.now) := by
  by_cases hskip : current = .unknown ∨ v.cursor.map Cursor.status = some current
  · rw [View.plain_skip hskip]; exact grown_refl v
  by_cases hquiet : v.cursor.isNone ∧ current = .normal
  · rw [View.plain_baseline hskip hquiet]
    exact ⟨⟨id, fun _ => .inl rfl, .inl (List.map_id _).symm⟩,
      issued_of_sequence rfl rfl (Nat.le_succ _)⟩
  · rw [View.plain_event hskip hquiet]
    refine ⟨⟨id, fun _ => .inl rfl, .inr ⟨_, by rw [List.map_id], rfl, rfl, ?_, ?_⟩⟩,
      issued_of_sequence rfl rfl (Nat.le_succ _)⟩
    · simp [View.Issued]
    · simp [View.Issued]

theorem grown_service (key : Key) (report : Option ServiceReport) (content : Message) :
    Grown v (v.service key report content x.now) := by
  have haged : ∀ r, Grown v (v.supersede r) := fun r =>
    ⟨⟨_, superseded_aged r, .inl rfl⟩, fun id h => by cases id <;> exact h⟩
  unfold View.service
  split
  · exact grown_refl v
  next r =>
  split
  · exact grown_refl v
  split
  · exact haged r
  unfold View.accept
  dsimp only
  generalize isEvent v.cursor (keptReceipt v.cursor r) (v.supersede r).items r = event
  cases event with
  | false => exact ⟨⟨_, superseded_aged r, .inl rfl⟩, issued_of_sequence rfl rfl (Nat.le_refl _)⟩
  | true =>
      refine ⟨⟨_, superseded_aged r, .inr ⟨_, rfl, rfl, rfl, ?_, ?_⟩⟩,
        issued_of_sequence rfl rfl (Nat.le_succ _)⟩
      · simp [View.Issued]
      · simp [View.Issued]

/-- **The first write** appends at most one item, with an identity not given away before. -/
theorem prepared_grown (h : ViewPrepared x o v v') : Grown v v' := by
  cases h with
  | idle => exact grown_refl v
  | test htest ho hv =>
      refine ⟨⟨id, fun _ => .inl rfl, .inr ⟨x.testItem, by rw [List.map_id], rfl, rfl, ?_, ?_⟩⟩, ?_⟩
      · simp [View.Issued, RunInput.testItem, hv]
      · simp [View.Issued, RunInput.testItem]
      · intro id hid
        cases id with
        | connectionTest => rfl
        | event key n => exact hid
  | observed htest hsource hdim ho h =>
      rcases h with ⟨-, content, -, rfl⟩ | ⟨-, content, -, rfl⟩
      · exact grown_plain _ _ _
      · exact grown_service _ _ _

/-- The members of a grown list. -/
theorem Grown.mem (h : Grown v v') {item : Item} (hm : item ∈ v'.items) :
    (∃ old ∈ v.items, old.Aged item) ∨
      (item.delivery = .pending ∧ item.attempts = 0 ∧ ¬ v.Issued item.id ∧ v'.Issued item.id) := by
  obtain ⟨f, hf, hitems | ⟨new, hitems, hnew⟩⟩ := h.items
  · rw [hitems] at hm
    obtain ⟨old, hold, rfl⟩ := List.mem_map.mp hm
    exact .inl ⟨old, hold, hf old⟩
  · rw [hitems] at hm
    rcases List.mem_append.mp hm with hm | hm
    · obtain ⟨old, hold, rfl⟩ := List.mem_map.mp hm
      exact .inl ⟨old, hold, hf old⟩
    · rw [List.mem_singleton.mp hm]
      exact .inr hnew

theorem Grown.nodup (h : Grown v v') (hn : (v.items.map Item.id).Nodup)
    (hissued : ∀ item ∈ v.items, v.Issued item.id) : (v'.items.map Item.id).Nodup := by
  obtain ⟨f, hf, hitems⟩ := h.items
  have hids : (v.items.map f).map Item.id = v.items.map Item.id := by
    rw [List.map_map]
    exact List.map_congr_left fun item _ => (hf item).id
  rcases hitems with hitems | ⟨new, hitems, -, -, hfresh, -⟩
  · rwa [hitems, hids]
  · rw [hitems, List.map_append, hids, List.map_singleton]
    refine List.nodup_append.mpr ⟨hn, List.nodup_singleton _, ?_⟩
    rintro a ha b hb rfl
    obtain ⟨item, hitem, hid⟩ := List.mem_map.mp ha
    rw [List.mem_singleton.mp hb] at hid
    exact hfresh (hid ▸ hissued item hitem)

end Grown

end Discord
end PickleInfra
