import PickleInfra.Discord.View

/-!
# `Discord.Prepare` — the first write of a run, key by key

`prepare_spec`: for every key, the view of the state a run writes first is the pruned view of the
state it read, after the one observation this run has of the key, if it has any. The test message is
the only item of no key.
-/

namespace PickleInfra
namespace Discord

open Python

/-- The dimensions a collector reports for a source. -/
def Source.dimensions (source : Source) : List Dimension :=
  if source.kind.isService then [.condition, .observer] else [.condition, .freshness]

/-- The signal of a plain source in one dimension. -/
def RunInput.signal (x : RunInput) (source : Source) : Dimension → Signal
  | .freshness => (x.plain source).2
  | _          => (x.plain source).1

/-- The report of a `service_health` source in one dimension. -/
def RunInput.report (x : RunInput) (source : Source) : Dimension → Option ServiceReport
  | .observer => (x.service source).2
  | _         => (x.service source).1

/-- What the observation of one source in one dimension does to its key. -/
def KeyObserved (x : RunInput) (source : Source) (dimension : Dimension) (v v' : View) : Prop :=
  (source.kind.isService = false ∧ ∃ content, content.signal = some (x.signal source dimension) ∧
    v' = v.plain (source.name, dimension) (x.signal source dimension) content x.now) ∨
  (source.kind.isService = true ∧ ∃ content,
    (∀ r, x.report source dimension = some r → content.signal = some r.status) ∧
    v' = v.service (source.name, dimension) (x.report source dimension) content x.now)

/-- An item that became eligible: its tag matches the report its source accepted. -/
def EligibleAs (x : RunInput) (source : Source) (dimension : Dimension) (s s' : State)
    (id : ItemId) : Prop :=
  source.kind.isService = true ∧ ∃ r, x.report source dimension = some r ∧
    Accepted (s.view (some (source.name, dimension))) (some r) ∧
    ∃ item ∈ (s'.view (some (source.name, dimension))).items, item.id = id ∧
      ∃ tag, item.service = some tag ∧ serviceMatches tag r = true

/-! ## One source -/

section Observe

variable {x : RunInput} {source : Source} {s s' : State} {eligible eligible' : List ItemId}

theorem observeService_spec {dimension : Dimension}
    (hkind : source.kind.isService = true)
    (h : observeService x source dimension (x.report source dimension) (s, eligible) =
      .ok (s', eligible')) :
    Frame (source.name, dimension) s s' ∧
      KeyObserved x source dimension (s.view (some (source.name, dimension)))
        (s'.view (some (source.name, dimension))) ∧
      ∀ id ∈ eligible', id ∈ eligible ∨ EligibleAs x source dimension s s' id := by
  unfold observeService at h
  dsimp only at h
  cases he : enqueueServiceHealth s x.config source dimension (x.report source dimension) x.now with
  | error e => simp [he] at h
  | ok res =>
      obtain ⟨s₁, b⟩ := res
      obtain ⟨hframe, hb, content, hc, hview⟩ := enqueueServiceHealth_view he
      rw [he] at h
      cases b with
      | false =>
          simp only [Except.ok.injEq, Prod.mk.injEq] at h
          obtain ⟨rfl, rfl⟩ := h
          exact ⟨hframe, .inr ⟨hkind, content, hc, hview⟩, fun id hid => .inl hid⟩
      | true =>
          simp only [Except.ok.injEq, Prod.mk.injEq] at h
          obtain ⟨rfl, rfl⟩ := h
          refine ⟨hframe, .inr ⟨hkind, content, hc, hview⟩, fun id hid => ?_⟩
          rcases List.mem_append.mp hid with hid | hid
          · exact .inl hid
          obtain ⟨item, hitem, rfl⟩ := List.mem_map.mp hid
          obtain ⟨hmem, hmatch⟩ := List.mem_filter.mp hitem
          rw [Bool.and_eq_true] at hmatch
          obtain ⟨r, hr, hacc, hu⟩ := hb.mp rfl
          have hkey : item.id.key? = some (source.name, dimension) := by
            have hof := hmatch.1
            rw [Item.isServiceOf, Bool.and_eq_true, decide_eq_true_eq] at hof
            exact hof.2
          refine .inr ⟨hkind, r, hr, ⟨r, rfl, hacc, hu⟩, item,
            List.mem_filter.mpr ⟨hmem, by simpa using hkey⟩, rfl, ?_⟩
          cases htag : item.service with
          | none => simp [htag] at hmatch
          | some tag => exact ⟨tag, rfl, by simpa [htag, hr] using hmatch.2⟩

/-- What the observation of one source does to every key. -/
structure SourceObserved (x : RunInput) (source : Source) (s s' : State)
    (eligible eligible' : List ItemId) : Prop where
  others : ∀ o, (∀ dimension ∈ source.dimensions, o ≠ some (source.name, dimension)) →
    s'.view o = s.view o
  own : ∀ dimension ∈ source.dimensions, KeyObserved x source dimension
    (s.view (some (source.name, dimension))) (s'.view (some (source.name, dimension)))
  lastRun : s'.lastRun = s.lastRun
  webhookRetryAfter : s'.webhookRetryAfter = s.webhookRetryAfter
  eligible : ∀ id ∈ eligible', id ∈ eligible ∨
    ∃ dimension ∈ source.dimensions, EligibleAs x source dimension s s' id

/-- Two observations of one source, in different dimensions. -/
theorem sourceObserved_of_two {d₁ d₂ : Dimension} (hdims : source.dimensions = [d₁, d₂])
    (hne : d₁ ≠ d₂) {s₁ : State} {eligible₁ : List ItemId}
    (h₁ : Frame (source.name, d₁) s s₁)
    (k₁ : KeyObserved x source d₁ (s.view (some (source.name, d₁))) (s₁.view (some (source.name, d₁))))
    (e₁ : ∀ id ∈ eligible₁, id ∈ eligible ∨ EligibleAs x source d₁ s s₁ id)
    (h₂ : Frame (source.name, d₂) s₁ s')
    (k₂ : KeyObserved x source d₂ (s₁.view (some (source.name, d₂))) (s'.view (some (source.name, d₂))))
    (e₂ : ∀ id ∈ eligible', id ∈ eligible₁ ∨ EligibleAs x source d₂ s₁ s' id) :
    SourceObserved x source s s' eligible eligible' := by
  have hkeys : (source.name, d₁) ≠ (source.name, d₂) := fun h => hne (Prod.mk.inj h).2
  have hview₁ : s'.view (some (source.name, d₁)) = s₁.view (some (source.name, d₁)) :=
    h₂.others _ (fun h => hkeys (Option.some.inj h))
  have hview₂ : s₁.view (some (source.name, d₂)) = s.view (some (source.name, d₂)) :=
    h₁.others _ (fun h => hkeys (Option.some.inj h).symm)
  rw [hview₂] at k₂
  rw [← hview₁] at k₁
  constructor
  · intro o ho
    rw [hdims] at ho
    rw [h₂.others o (ho d₂ (by simp)), h₁.others o (ho d₁ (by simp))]
  · intro d hd
    rw [hdims, List.mem_cons, List.mem_singleton] at hd
    rcases hd with rfl | rfl
    · exact k₁
    · exact k₂
  · rw [h₂.lastRun, h₁.lastRun]
  · rw [h₂.webhookRetryAfter, h₁.webhookRetryAfter]
  · intro id hid
    rw [hdims]
    rcases e₂ id hid with hid | ⟨hkind, r, hr, hacc, item, hm, hrest⟩
    · rcases e₁ id hid with hid | ⟨hkind, r, hr, hacc, item, hm, hrest⟩
      · exact .inl hid
      · exact .inr ⟨d₁, by simp, hkind, r, hr, hacc, item, hview₁ ▸ hm, hrest⟩
    · exact .inr ⟨d₂, by simp, hkind, r, hr, hview₂ ▸ hacc, item, hm, hrest⟩

theorem observeSource_spec (h : observeSource x source (s, eligible) = .ok (s', eligible')) :
    SourceObserved x source s s' eligible eligible' := by
  unfold observeSource at h
  cases hservice : source.kind.isService with
  | true =>
      have hdims : source.dimensions = [.condition, .observer] := by
        rw [Source.dimensions, if_pos hservice]
      obtain ⟨sourceName, warning, hkind⟩ : ∃ n w, source.kind = .serviceHealth n w := by
        cases hk : source.kind with
        | serviceHealth n w => exact ⟨n, w, rfl⟩
        | systemd | cronMarkers | monitorState | dbCache =>
            rw [hk] at hservice; exact absurd hservice (by simp [SourceKind.isService])
      rw [hkind] at h
      dsimp only at h
      cases h₁ : observeService x source .condition (x.service source).1 (s, eligible) with
      | error e => simp [h₁, bind, Except.bind] at h
      | ok acc =>
          obtain ⟨s₁, eligible₁⟩ := acc
          simp only [h₁, bind, Except.bind] at h
          obtain ⟨f₁, k₁, e₁⟩ := observeService_spec hservice h₁
          obtain ⟨f₂, k₂, e₂⟩ := @observeService_spec _ _ _ _ _ _ .observer hservice h
          exact sourceObserved_of_two hdims (by simp) f₁ k₁ e₁ f₂ k₂ e₂
  | false =>
      have hdims : source.dimensions = [.condition, .freshness] := by
        rw [Source.dimensions, hservice]; rfl
      have hplain : (do
          let s ← enqueue s x.config source .condition (x.plain source).1 x.now
          let s ← enqueue s x.config source .freshness (x.plain source).2 x.now
          .ok (s, eligible)) = (.ok (s', eligible') : Except AlertExn (State × List ItemId)) := by
        cases hk : source.kind with
        | serviceHealth n w => rw [hk] at hservice; exact absurd hservice (by simp [SourceKind.isService])
        | systemd | cronMarkers | monitorState | dbCache => rw [hk] at h; exact h
      cases h₁ : enqueue s x.config source .condition (x.plain source).1 x.now with
      | error e => simp [h₁, bind, Except.bind] at hplain
      | ok s₁ =>
          cases h₂ : enqueue s₁ x.config source .freshness (x.plain source).2 x.now with
          | error e => simp [h₁, h₂, bind, Except.bind] at hplain
          | ok s₂ =>
              simp only [h₁, h₂, bind, Except.bind, Except.ok.injEq, Prod.mk.injEq] at hplain
              obtain ⟨rfl, rfl⟩ := hplain
              obtain ⟨f₁, c₁, hc₁, v₁⟩ := enqueue_view h₁
              obtain ⟨f₂, c₂, hc₂, v₂⟩ := enqueue_view h₂
              exact sourceObserved_of_two hdims (by simp) f₁ (.inl ⟨hservice, c₁, hc₁, v₁⟩)
                (fun id hid => .inl hid) f₂ (.inl ⟨hservice, c₂, hc₂, v₂⟩) (fun id hid => .inl hid)

/-- What the observations of a list of sources do to every key. -/
structure SourcesObserved (x : RunInput) (sources : List Source) (s s' : State)
    (eligible eligible' : List ItemId) : Prop where
  others : ∀ o, (∀ source ∈ sources, ∀ dimension ∈ source.dimensions,
    o ≠ some (source.name, dimension)) → s'.view o = s.view o
  own : ∀ source ∈ sources, ∀ dimension ∈ source.dimensions, KeyObserved x source dimension
    (s.view (some (source.name, dimension))) (s'.view (some (source.name, dimension)))
  lastRun : s'.lastRun = s.lastRun
  webhookRetryAfter : s'.webhookRetryAfter = s.webhookRetryAfter
  eligible : ∀ id ∈ eligible', id ∈ eligible ∨ ∃ source ∈ sources,
    ∃ dimension ∈ source.dimensions, EligibleAs x source dimension s s' id

theorem observeAll_spec {sources : List Source} (hnodup : (sources.map Source.name).Nodup)
    (h : observeAll x sources (s, eligible) = .ok (s', eligible')) :
    SourcesObserved x sources s s' eligible eligible' := by
  induction sources generalizing s eligible with
  | nil =>
      simp only [observeAll, Except.ok.injEq, Prod.mk.injEq] at h
      obtain ⟨rfl, rfl⟩ := h
      exact ⟨fun _ _ => rfl, by simp, rfl, rfl, fun id hid => .inl hid⟩
  | cons source rest ih =>
      rw [List.map_cons, List.nodup_cons] at hnodup
      unfold observeAll at h
      cases h₁ : observeSource x source (s, eligible) with
      | error e => simp [h₁, bind, Except.bind] at h
      | ok acc =>
          obtain ⟨s₁, eligible₁⟩ := acc
          simp only [h₁, bind, Except.bind] at h
          have hfirst := observeSource_spec h₁
          have hrest := ih hnodup.2 h
          -- the keys of the first source are not those of the rest
          have hapart : ∀ source' ∈ rest, ∀ d d' : Dimension,
              (source.name, d) ≠ (source'.name, d') := by
            intro source' hs d d' he
            exact hnodup.1 (List.mem_map.mpr ⟨source', hs, (Prod.mk.inj he).1.symm⟩)
          have hkeep : ∀ d, s'.view (some (source.name, d)) = s₁.view (some (source.name, d)) :=
            fun d => hrest.others _ fun source' hs d' _ he =>
              hapart source' hs d d' (Option.some.inj he)
          have hbefore : ∀ source' ∈ rest, ∀ d,
              s₁.view (some (source'.name, d)) = s.view (some (source'.name, d)) :=
            fun source' hs d => hfirst.others _ fun d' _ he =>
              hapart source' hs d' d (Option.some.inj he).symm
          constructor
          · intro o ho
            rw [hrest.others o (fun s hs => ho s (List.mem_cons_of_mem _ hs)),
              hfirst.others o (ho source List.mem_cons_self)]
          · intro source' hs d hd
            rcases List.mem_cons.mp hs with rfl | hs
            · rw [hkeep]; exact hfirst.own d hd
            · rw [← hbefore source' hs]; exact hrest.own source' hs d hd
          · rw [hrest.lastRun, hfirst.lastRun]
          · rw [hrest.webhookRetryAfter, hfirst.webhookRetryAfter]
          · intro id hid
            rcases hrest.eligible id hid with hid | ⟨source', hs, d, hd, hk, r, hr, hacc, hitem⟩
            · rcases hfirst.eligible id hid with hid | ⟨d, hd, hk, r, hr, hacc, item, hm, hitem⟩
              · exact .inl hid
              · exact .inr ⟨source, List.mem_cons_self, d, hd, hk, r, hr, hacc, item,
                  (hkeep d).symm ▸ hm, hitem⟩
            · exact .inr ⟨source', List.mem_cons_of_mem _ hs, d, hd, hk, r, hr,
                hbefore source' hs d ▸ hacc, hitem⟩

end Observe

/-! ## The prune -/

/-- A view after the prune. -/
structure PrunedView (v v' : View) : Prop where
  cursor : v'.cursor = v.cursor
  tested : v'.tested = v.tested
  items : View.Pruned v.items v'.items

theorem filter_suffix {α : Type} (p : α → Bool) {l l' : List α} (h : l <:+ l') :
    l.filter p <:+ l'.filter p := by
  obtain ⟨t, rfl⟩ := h
  rw [List.filter_append]
  exact List.suffix_append _ _

theorem prune_view (s : State) (o : Option Key) :
    PrunedView (s.view o) (({ s with outbox := prune s.outbox } : State).view o) := by
  refine ⟨rfl, rfl, ?_⟩
  unfold View.Pruned
  simp only [State.view, prune, List.filter_append, List.filter_filter]
  have hdrop := List.drop_suffix ((s.outbox.filter (fun item =>
    decide (item.delivery = .sent ∨ item.delivery = .superseded))).length - 100)
    (s.outbox.filter (fun item => decide (item.delivery = .sent ∨ item.delivery = .superseded)))
  have hsuffix := filter_suffix (fun item => decide (item.id.key? = o)) hdrop
  rw [List.filter_filter] at hsuffix
  have hcomm : s.outbox.filter (fun item => decide (item.id.key? = o) &&
      decide (item.delivery = .sent ∨ item.delivery = .superseded)) =
      s.outbox.filter (fun item => decide (item.delivery = .sent ∨ item.delivery = .superseded) &&
        decide (item.id.key? = o)) :=
    List.filter_congr fun item _ => Bool.and_comm _ _
  refine ⟨_, hcomm ▸ hsuffix, ?_⟩
  congr 1
  exact List.filter_congr fun item _ => Bool.and_comm _ _

/-! ## `prepare` -/

/-- What a run does to a pruned view before its first write. -/
inductive ViewPrepared (x : RunInput) (o : Option Key) (v : View) : View → Prop
  | idle (h : x.testMessage = true ∨ ∀ source ∈ x.config.sources, ∀ dimension ∈ source.dimensions,
      o ≠ some (source.name, dimension)) : ViewPrepared x o v v
  | test (htest : x.testMessage = true) (ho : o = none) (hv : v.tested = false) :
      ViewPrepared x o v { v with items := v.items ++ [x.testItem], tested := true }
  | observed {source : Source} {dimension : Dimension} {v' : View} (htest : x.testMessage = false)
      (hsource : source ∈ x.config.sources) (hdim : dimension ∈ source.dimensions)
      (ho : o = some (source.name, dimension)) (h : KeyObserved x source dimension v v') :
      ViewPrepared x o v v'

/-- The state of a state file; there is none before the first run. -/
def loaded (disk : Option State) : State := disk.getD {}

/-- What a run has established before its first write. -/
structure Prepared (x : RunInput) (disk : Option State) (s' : State) (eligible : List ItemId) :
    Prop where
  views : ∀ o, ∃ v, PrunedView ((loaded disk).view o) v ∧ ViewPrepared x o v (s'.view o)
  lastRun : s'.lastRun = some x.now
  webhookRetryAfter : s'.webhookRetryAfter = (loaded disk).webhookRetryAfter
  length : s'.outbox.length ≤ maxOutbox
  eligible : ∀ id ∈ eligible, x.testMessage = false ∧ ∃ source ∈ x.config.sources,
    ∃ dimension ∈ source.dimensions, source.kind.isService = true ∧
      ∃ r, x.report source dimension = some r ∧
        Accepted ((loaded disk).view (some (source.name, dimension))) (some r) ∧
        ∃ item ∈ (s'.view (some (source.name, dimension))).items, item.id = id ∧
          ∃ tag, item.service = some tag ∧ serviceMatches tag r = true

theorem view_enqueueTest (x : RunInput) (s : State) (o : Option Key) :
    (enqueueTest x s).view o =
      if o = none ∧ s.testEnqueued = false then
        { s.view o with items := (s.view o).items ++ [x.testItem], tested := true }
      else s.view o := by
  unfold enqueueTest
  cases ht : s.testEnqueued with
  | true => simp
  | false =>
      cases o with
      | none => simp [State.view, RunInput.testItem, ItemId.key?]
      | some key => simp [State.view, RunInput.testItem, ItemId.key?]

theorem validateState_ok {s s' : State} (h : validateState s = .ok s') : s' = s := by
  unfold validateState at h
  split at h
  · simp at h
  split at h
  · simp at h
  · cases h; rfl

theorem loadState_ok {disk : Option State} {s : State} (h : loadState disk = .ok s) :
    s = loaded disk := by
  cases disk with
  | none => cases h; rfl
  | some s₀ => exact validateState_ok h

/-- **The first write of a run.** -/
theorem prepare_spec {x : RunInput} {disk : Option State} {s' : State} {eligible : List ItemId}
    (h : prepare x disk = .ok (s', eligible)) : Prepared x disk s' eligible := by
  unfold prepare at h
  cases hl : loadState disk with
  | error e => simp [hl] at h
  | ok s =>
      obtain rfl := loadState_ok hl
      simp only [hl] at h
      split at h
      · simp at h
      have hprune := prune_view (loaded disk)
      cases hq : queue x { loaded disk with outbox := prune (loaded disk).outbox } with
      | error e => simp [hq] at h
      | ok acc =>
          obtain ⟨s₁, eligible₁⟩ := acc
          simp only [hq] at h
          split at h
          · simp at h
          next hlen =>
          simp only [Except.ok.injEq, Prod.mk.injEq] at h
          obtain ⟨rfl, rfl⟩ := h
          unfold queue at hq
          cases htest : x.testMessage with
          | true =>
              simp only [htest, if_true, Except.ok.injEq, Prod.mk.injEq] at hq
              obtain ⟨rfl, rfl⟩ := hq
              refine ⟨fun o => ⟨_, hprune o, ?_⟩, rfl, ?_, not_lt.mp hlen, by simp⟩
              · have hview := view_enqueueTest x
                  { loaded disk with outbox := prune (loaded disk).outbox } o
                change ViewPrepared x o _ ((enqueueTest x _).view o)
                rw [hview]
                split
                · next hc => exact .test htest hc.1 (by rw [State.view, hc.2, Bool.and_false])
                · exact .idle (.inl htest)
              · unfold enqueueTest
                split <;> rfl
          | false =>
              simp only [htest, Bool.false_eq_true, if_false] at hq
              have hobs := observeAll_spec x.config.nodup hq
              refine ⟨fun o => ⟨_, hprune o, ?_⟩, rfl, hobs.webhookRetryAfter, not_lt.mp hlen, ?_⟩
              · by_cases hk : ∀ source ∈ x.config.sources, ∀ dimension ∈ source.dimensions,
                    o ≠ some (source.name, dimension)
                · have hsame := hobs.others o hk
                  change ViewPrepared x o _ (s₁.view o)
                  rw [hsame]
                  exact .idle (.inr hk)
                · push Not at hk
                  obtain ⟨source, hsource, dimension, hdim, rfl⟩ := hk
                  exact .observed htest hsource hdim rfl (hobs.own source hsource dimension hdim)
              · intro id hid
                rcases hobs.eligible id hid with hid | ⟨source, hs, d, hd, hk, r, hr, hacc, hitem⟩
                · simp at hid
                · exact ⟨htest, source, hs, d, hd, hk, r, hr, hacc, hitem⟩

end Discord
end PickleInfra
