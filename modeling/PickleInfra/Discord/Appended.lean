import PickleInfra.Discord.AtMostOnce

/-!
# `Discord.Appended` — the items that were ever queued for a key

The prune forgets items, so what was queued over a whole history is read off the persisted views: an
item was appended by the first view that has its identity (`appended`, newest first). A move of a run
appends nothing, and a first write appends exactly what its enqueue does.
-/

namespace PickleInfra
namespace Discord

open Python Durable History

/-- The newest persisted view. -/
def lastView : List KeyEvent → View
  | []              => ⟨none, [], false⟩
  | .saw v :: _     => v
  | .call .. :: rest => lastView rest

/-- The items whose identity a persisted view was the first to have, newest first. -/
def appended : List KeyEvent → List Item
  | []            => []
  | .saw v :: rest =>
    v.items.filter (fun i => decide (i.id ∉ (lastView rest).items.map Item.id)) ++ appended rest
  | .call .. :: rest => appended rest

@[simp] theorem lastView_saw (v : View) (hist : List KeyEvent) : lastView (.saw v :: hist) = v := rfl
@[simp] theorem lastView_call (q : Post) (a : Option Outcome) (hist : List KeyEvent) :
    lastView (.call q a :: hist) = lastView hist := rfl
@[simp] theorem appended_nil : appended [] = [] := rfl
@[simp] theorem appended_call (q : Post) (a : Option Outcome) (hist : List KeyEvent) :
    appended (.call q a :: hist) = appended hist := rfl

/-- A view with no new identity appends nothing. -/
theorem appended_saw_none {v : View} {hist : List KeyEvent}
    (h : ∀ i ∈ v.items, i.id ∈ (lastView hist).items.map Item.id) :
    appended (.saw v :: hist) = appended hist := by
  have hnil : v.items.filter (fun i => decide (i.id ∉ (lastView hist).items.map Item.id)) = [] :=
    List.filter_eq_nil_iff.mpr fun i hi => by simpa using h i hi
  rw [appended, hnil, List.nil_append]

theorem appended_saw_append {v : View} {hist : List KeyEvent} {old : List Item} {new : Item}
    (hitems : v.items = old ++ [new]) (hold : ∀ i ∈ old, i.id ∈ (lastView hist).items.map Item.id)
    (hnew : new.id ∉ (lastView hist).items.map Item.id) :
    appended (.saw v :: hist) = new :: appended hist := by
  have hnil : old.filter (fun i => decide (i.id ∉ (lastView hist).items.map Item.id)) = [] :=
    List.filter_eq_nil_iff.mpr fun i hi => by simpa using hold i hi
  rw [appended, hitems, List.filter_append, hnil, List.nil_append,
    List.filter_cons_of_pos (by simpa using hnew), List.filter_nil, List.singleton_append]

/-! ## Runs -/

/-- The view is the newest persisted one. -/
def KeyWorld.Seen (k : KeyWorld) : Prop := lastView k.hist = k.view

theorem seen_start : KeyWorld.start.Seen := rfl
theorem seen_saved (k : KeyWorld) (v : View) : (k.saved v).Seen := rfl

theorem KeyWorld.Seen.called {k : KeyWorld} (h : k.Seen) (q : Post) (a : Option Outcome) :
    (k.called q a).Seen := h

section Moves

variable {k : KeyWorld} {done rest : List Item} {item item' : Item}

/-- Replacing an item appends nothing. -/
theorem appended_replace (hseen : k.Seen) (hsplit : k.view.items = done ++ item :: rest)
    (hid : item'.id = item.id) :
    appended (k.saved (k.view.replace done item' rest)).hist = appended k.hist := by
  refine appended_saw_none fun i hi => ?_
  rw [hseen, hsplit]
  simp only [replace_items, List.mem_append, List.mem_cons] at hi
  rcases hi with hi | rfl | hi
  · exact List.mem_map.mpr ⟨i, List.mem_append_left _ hi, rfl⟩
  · rw [hid]; simp
  · exact List.mem_map.mpr ⟨i, List.mem_append_right _ (List.mem_cons_of_mem _ hi), rfl⟩

/-- **A move** appends nothing. -/
theorem appended_move {x : RunInput} {eligible : List ItemId} {k' : KeyWorld} (hseen : k.Seen)
    (hm : KeyMove x eligible k k') : k'.Seen ∧ appended k'.hist = appended k.hist := by
  cases hm with
  | saved =>
      refine ⟨rfl, appended_saw_none fun i hi => ?_⟩
      rw [hseen]; exact List.mem_map.mpr ⟨i, hi, rfl⟩
  | settled hsplit _ => exact ⟨rfl, appended_replace hseen hsplit rfl⟩
  | exhausted hsplit _ => exact ⟨rfl, appended_replace hseen hsplit rfl⟩
  | claimed hdue => exact ⟨rfl, appended_replace hseen hdue.split rfl⟩
  | called hdue answer => exact ⟨rfl, appended_replace hseen hdue.split rfl⟩
  | @recorded done rest item hdue outcome =>
      refine ⟨rfl, ?_⟩
      have hclaim : appended (k.claim done item rest).hist = appended k.hist :=
        appended_replace hseen hdue.split rfl
      rw [← replace_claimed]
      exact (appended_replace (k := (k.claim done item rest).called ⟨item.claimed, x.now⟩
        (some outcome)) rfl rfl (recorded_id item.claimed _ _)).trans hclaim

end Moves

section First

variable {k : KeyWorld} {v v' : View}

/-- What a first write appends: nothing, if all it has are aged items of the pruned view. -/
theorem appended_first_none (hseen : k.Seen) (hprune : PrunedView k.view v) {f : Item → Item}
    (hf : ∀ item, (f item).id = item.id) (hitems : v'.items = v.items.map f) :
    appended (k.saved v').hist = appended k.hist := by
  refine appended_saw_none fun i hi => ?_
  rw [hitems] at hi
  obtain ⟨old, hold, rfl⟩ := List.mem_map.mp hi
  rw [hseen, hf]
  exact List.mem_map.mpr ⟨old, mem_of_pruned hprune.items hold, rfl⟩

/-- And the new item, if it has one with a fresh identity. -/
theorem appended_first_new (hseen : k.Seen) (hledger : Ledger k) (hprune : PrunedView k.view v)
    {f : Item → Item} (hf : ∀ item, (f item).id = item.id) {new : Item}
    (hitems : v'.items = v.items.map f ++ [new]) (hnew : ¬ k.view.Issued new.id) :
    appended (k.saved v').hist = new :: appended k.hist := by
  refine appended_saw_append hitems (fun i hi => ?_) fun hm => ?_
  · obtain ⟨old, hold, rfl⟩ := List.mem_map.mp hi
    rw [hseen, hf]
    exact List.mem_map.mpr ⟨old, mem_of_pruned hprune.items hold, rfl⟩
  · rw [hseen] at hm
    obtain ⟨old, hold, hid⟩ := List.mem_map.mp hm
    exact hnew (hid ▸ (hledger.items old hold).2)

end First

end Discord
end PickleInfra
