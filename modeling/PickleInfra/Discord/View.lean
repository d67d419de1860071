import PickleInfra.Discord.Run

/-!
# `Discord.View` — a run, one key at a time

Everything the outbox does is about one key: its cursor and its items. `State.view` is the part of a
state that belongs to a key (the test message belongs to `none`), and `View.plain` and `View.service`
are `enqueue` and `enqueue_service_health` on it. `prepare_view` says that the state a run writes
first is, key by key, the pruned view of the state it has read, after at most one of the two.
-/

namespace PickleInfra
namespace Discord

open Python

/-- The part of the state that belongs to a key. -/
structure View where
  cursor : Option Cursor
  items : List Item
  tested : Bool

def State.view (s : State) (o : Option Key) : View where
  cursor := o.bind s.observations.get?
  items := s.outbox.filter (fun item => item.id.key? = o)
  tested := o.isNone && s.testEnqueued

@[simp] theorem view_cursor (s : State) (key : Key) :
    (s.view (some key)).cursor = s.observations.get? key := rfl

namespace View

/-- `enqueue` on its key. -/
def plain (v : View) (key : Key) (current : Signal) (content : Message) (now : ℚ) : View :=
  if current = .unknown ∨ v.cursor.map Cursor.status = some current then v
  else
    let sequence := (v.cursor.map Cursor.sequence).getD 0 + 1
    { v with
      cursor := some { status := current, sequence }
      items := if v.cursor.isNone ∧ current = .normal then v.items
        else v.items ++ [newItem key sequence content now none] }

section Plain

variable {v : View} {key : Key} {current : Signal} {content : Message} {now : ℚ}

theorem plain_skip (h : current = .unknown ∨ v.cursor.map Cursor.status = some current) :
    v.plain key current content now = v := if_pos h

/-- A first `NORMAL` is only a baseline. -/
theorem plain_baseline (h : ¬ (current = .unknown ∨ v.cursor.map Cursor.status = some current))
    (hq : v.cursor.isNone ∧ current = .normal) :
    v.plain key current content now =
      { v with
        cursor := some ⟨current, (v.cursor.map Cursor.sequence).getD 0 + 1, none, none⟩ } := by
  rw [plain, if_neg h]
  dsimp only
  rw [if_pos hq]

theorem plain_event (h : ¬ (current = .unknown ∨ v.cursor.map Cursor.status = some current))
    (hq : ¬ (v.cursor.isNone ∧ current = .normal)) :
    v.plain key current content now =
      { v with
        cursor := some ⟨current, (v.cursor.map Cursor.sequence).getD 0 + 1, none, none⟩
        items := v.items ++
          [newItem key ((v.cursor.map Cursor.sequence).getD 0 + 1) content now none] } := by
  rw [plain, if_neg h]
  dsimp only
  rw [if_neg hq]

end Plain

def supersede (v : View) (report : ServiceReport) : View :=
  { v with items := v.items.map (Item.superseded report) }

/-- `enqueue_service_health` on its key, for a report it accepts. -/
def accept (v : View) (key : Key) (report : ServiceReport) (content : Message) (now : ℚ) : View :=
  let v' := v.supersede report
  let receipt := keptReceipt v.cursor report
  let event := isEvent v.cursor receipt v'.items report
  let sequence := (v.cursor.map Cursor.sequence).getD 0 + if event then 1 else 0
  { v' with
    cursor := some { status := report.status, sequence, report := some report, receipt }
    items := if event then
        v'.items ++ [newItem key sequence content now (some (.ofReport report))]
      else v'.items }

/-- `enqueue_service_health` on its key. -/
def service (v : View) (key : Key) (report : Option ServiceReport) (content : Message) (now : ℚ) :
    View :=
  match report with
  | none        => v
  | some report =>
    if !accepts v.cursor report then v
    else if report.status = .unknown then v.supersede report
    else v.accept key report content now

/-- What the prune does to the items of a key: the unresolved ones stay in order, and of the
    confirmed ones a tail. -/
def Pruned (items items' : List Item) : Prop :=
  ∃ kept, kept <:+ items.filter (fun i => decide (i.delivery = .sent ∨ i.delivery = .superseded)) ∧
    items' = items.filter (fun i => !decide (i.delivery = .sent ∨ i.delivery = .superseded)) ++ kept

end View

/-- A report that is accepted and is evidence: `enqueue_service_health` returns `True`. -/
def Accepted (v : View) (report : Option ServiceReport) : Prop :=
  ∃ r, report = some r ∧ accepts v.cursor r = true ∧ r.status ≠ .unknown

/-! ## One enqueue -/

section Enqueue

variable {s s' : State} {config : Config} {source : Source} {dimension : Dimension} {now : ℚ}

@[simp] theorem newItem_id (key sequence content now service) :
    (newItem key sequence content now service).id = .event key sequence := rfl

theorem superseded_id (report : ServiceReport) (item : Item) :
    (item.superseded report).id = item.id := by
  unfold Item.superseded
  split
  · split
    · rfl
    · split <;> rfl
  · rfl

theorem filter_key_append_new (l : List Item) (o : Option Key) (key sequence content now service) :
    (l ++ [newItem key sequence content now service]).filter (fun i => i.id.key? = o) =
      if o = some key then
        l.filter (fun i => i.id.key? = o) ++ [newItem key sequence content now service]
      else l.filter (fun i => i.id.key? = o) := by
  rw [List.filter_append]
  by_cases ho : o = some key
  · subst ho; simp [ItemId.key?]
  · simp [ItemId.key?, ho, Ne.symm ho]

theorem messageContent_signal {current : Signal} {content : Message}
    (h : messageContent config source dimension current now = .ok content) :
    content.signal = some current := by
  unfold messageContent at h
  split at h
  · simp at h
  · cases h; rfl

/-- What an enqueue leaves alone. -/
structure Frame (key : Key) (s s' : State) : Prop where
  others : ∀ o, o ≠ some key → s'.view o = s.view o
  lastRun : s'.lastRun = s.lastRun
  webhookRetryAfter : s'.webhookRetryAfter = s.webhookRetryAfter

theorem Frame.refl (key : Key) (s : State) : Frame key s s := ⟨fun _ _ => rfl, rfl, rfl⟩

/-- Setting the cursor of a key, and adding an item of that key. -/
theorem view_set_append (s : State) (key : Key) (cursor : Cursor) (sequence content now service)
    (o : Option Key) (ho : o ≠ some key) :
    ({ s with observations := s.observations.set key cursor,
              outbox := s.outbox ++ [newItem key sequence content now service] } : State).view o =
      s.view o := by
  unfold State.view
  rw [filter_key_append_new, if_neg ho]
  cases o with
  | none => rfl
  | some key' =>
      have hne : key ≠ key' := fun h => ho (h ▸ rfl)
      simp [Dict.get?_set_ne _ _ hne]

theorem view_set (s : State) (key : Key) (cursor : Cursor) (o : Option Key) (ho : o ≠ some key) :
    ({ s with observations := s.observations.set key cursor } : State).view o = s.view o := by
  unfold State.view
  cases o with
  | none => rfl
  | some key' =>
      have hne : key ≠ key' := fun h => ho (h ▸ rfl)
      simp [Dict.get?_set_ne _ _ hne]

/-- **`enqueue`** is `View.plain` on its key, and leaves the rest alone. -/
theorem enqueue_view {current : Signal}
    (h : enqueue s config source dimension current now = .ok s') :
    Frame (source.name, dimension) s s' ∧ ∃ content, content.signal = some current ∧
      s'.view (some (source.name, dimension)) =
        (s.view (some (source.name, dimension))).plain (source.name, dimension) current content
          now := by
  unfold enqueue at h
  dsimp only at h
  split at h
  · next hskip =>
    cases h
    exact ⟨.refl _ _, .event current "" "" "" "" false, rfl, (View.plain_skip hskip).symm⟩
  next hskip =>
  split at h
  · next hquiet =>
    cases h
    refine ⟨⟨fun o ho => view_set _ _ _ o ho, rfl, rfl⟩, .event current "" "" "" "" false, rfl, ?_⟩
    refine Eq.trans ?_ (View.plain_baseline hskip hquiet).symm
    simp [State.view]
  next hquiet =>
  cases hm : messageContent config source dimension current now with
  | error e => simp [hm] at h
  | ok content =>
      simp only [hm, Except.ok.injEq] at h
      subst h
      refine ⟨⟨fun o ho => view_set_append _ _ _ _ _ _ _ o ho, rfl, rfl⟩, content,
        messageContent_signal hm, ?_⟩
      refine Eq.trans ?_ (View.plain_event hskip hquiet).symm
      unfold State.view
      rw [filter_key_append_new, if_pos rfl]
      simp

/-- `supersede` on its own key, and on the others. -/
theorem view_supersede (s : State) (key : Key) (report : ServiceReport) (o : Option Key) :
    (s.supersede key report).view o =
      if o = some key then (s.view o).supersede report else s.view o := by
  have hid : ∀ item : Item, (if item.isServiceOf key then item.superseded report else item).id =
      item.id := by
    intro item
    split
    · exact superseded_id report item
    · rfl
  have hitems : (s.supersede key report).outbox.filter (fun i => i.id.key? = o) =
      (s.outbox.filter (fun i => i.id.key? = o)).map
        (fun item => if item.isServiceOf key then item.superseded report else item) := by
    simp only [State.supersede, List.filter_map, Function.comp_def, hid]
  have hview : (s.supersede key report).view o = { s.view o with
      items := (s.outbox.filter (fun i => i.id.key? = o)).map
        (fun item => if item.isServiceOf key then item.superseded report else item) } := by
    rw [← hitems]; rfl
  rw [hview]
  by_cases ho : o = some key
  · subst ho
    rw [if_pos rfl]
    simp only [View.supersede, State.view, View.mk.injEq, true_and, and_true]
    refine List.map_congr_left fun item hm => ?_
    have hkey : item.id.key? = some key := by simpa using (List.mem_filter.mp hm).2
    cases hs : item.service with
    | none => simp [Item.isServiceOf, Item.superseded, hs]
    | some tag => simp [Item.isServiceOf, hs, hkey]
  · rw [if_neg ho]
    simp only [State.view, View.mk.injEq, true_and, and_true]
    refine (List.map_congr_left fun item hm => ?_).trans (List.map_id _)
    have hkey : item.id.key? = o := by simpa using (List.mem_filter.mp hm).2
    simp [Item.isServiceOf, hkey, ho]

/-- The items of a key decide `isEvent` as those that are service items do. -/
theorem isEvent_filter (old : Option Cursor) (receipt : Option Receipt) (s : State) (key : Key)
    (report : ServiceReport) :
    isEvent old receipt (s.outbox.filter (Item.isServiceOf key)) report =
      isEvent old receipt (s.view (some key)).items report := by
  have hany : (s.outbox.filter (Item.isServiceOf key)).any (Item.wasHanded report.closedIncident) =
      (s.view (some key)).items.any (Item.wasHanded report.closedIncident) := by
    simp only [State.view, List.any_filter]
    congr 1
    funext item
    cases hs : item.service with
    | none => simp [Item.isServiceOf, Item.wasHanded, hs]
    | some tag => simp [Item.isServiceOf, hs]
  unfold isEvent
  cases hst : report.status <;> simp only [hany]

/-- **`enqueue_service_health`** is `View.service` on its key, and leaves the rest alone. -/
theorem enqueueServiceHealth_view {report : Option ServiceReport} {b : Bool}
    (h : enqueueServiceHealth s config source dimension report now = .ok (s', b)) :
    Frame (source.name, dimension) s s' ∧ (b = true ↔
        Accepted (s.view (some (source.name, dimension))) report) ∧
      ∃ content, (∀ r, report = some r → content.signal = some r.status) ∧
        s'.view (some (source.name, dimension)) =
          (s.view (some (source.name, dimension))).service (source.name, dimension) report content
            now := by
  unfold enqueueServiceHealth at h
  cases report with
  | none =>
      simp only [Except.ok.injEq, Prod.mk.injEq] at h
      obtain ⟨rfl, rfl⟩ := h
      exact ⟨.refl _ _, by simp [Accepted], .test "", by simp, rfl⟩
  | some r =>
      dsimp only at h
      have hkey : ∀ content : Message, content.signal = some r.status →
          ∀ r', some r = some r' → content.signal = some r'.status := by
        rintro content hc _ ⟨⟩; exact hc
      have hsignal : (Message.event r.status "" "" "" "" false).signal = some r.status := rfl
      have hsup := fun o => view_supersede s (source.name, dimension) r o
      have hframe : Frame (source.name, dimension) s (s.supersede (source.name, dimension) r) :=
        ⟨fun o ho => by rw [hsup, if_neg ho], rfl, rfl⟩
      cases hacc : accepts (s.observations.get? (source.name, dimension)) r with
      | false =>
          rw [hacc] at h
          simp only [Bool.not_false, if_true, Except.ok.injEq, Prod.mk.injEq] at h
          obtain ⟨rfl, rfl⟩ := h
          refine ⟨.refl _ _, by simp [Accepted, hacc], _, hkey _ hsignal, ?_⟩
          simp [View.service, hacc]
      | true =>
          rw [hacc] at h
          simp only [Bool.not_true, Bool.false_eq_true, if_false] at h
          by_cases hu : r.status = .unknown
          · rw [if_pos hu] at h
            simp only [Except.ok.injEq, Prod.mk.injEq] at h
            obtain ⟨rfl, rfl⟩ := h
            refine ⟨hframe, by simp [Accepted, hu], _, hkey _ hsignal, ?_⟩
            rw [hsup, if_pos rfl]
            simp [View.service, hacc, hu]
          · rw [if_neg hu] at h
            have hyes : Accepted (s.view (some (source.name, dimension))) (some r) :=
              ⟨r, rfl, hacc, hu⟩
            rw [isEvent_filter, hsup, if_pos rfl] at h
            have hcursor : ∀ content, (s.view (some (source.name, dimension))).service
                (source.name, dimension) (some r) content now =
                (s.view (some (source.name, dimension))).accept (source.name, dimension) r content
                  now := by
              intro content
              simp [View.service, hacc, hu]
            have hitems := congrArg View.items (hsup (some (source.name, dimension)))
            rw [if_pos rfl] at hitems
            generalize hev : isEvent (s.observations.get? (source.name, dimension))
              (keptReceipt (s.observations.get? (source.name, dimension)) r)
              ((s.view (some (source.name, dimension))).supersede r).items r = event at h
            cases event with
            | false =>
                simp only [Bool.not_false, if_true, Except.ok.injEq, Prod.mk.injEq] at h
                obtain ⟨rfl, rfl⟩ := h
                refine ⟨⟨fun o ho => ?_, rfl, rfl⟩, by simp [hyes], _, hkey _ hsignal, ?_⟩
                · rw [view_set _ _ _ o ho, hframe.others o ho]
                · rw [hcursor]
                  simp only [View.accept, view_cursor, hev, Bool.false_eq_true, if_false]
                  rw [← hitems]
                  simp [State.view, State.supersede, View.supersede]
            | true =>
                cases hm : messageContent config source dimension r.status now with
                | error e => simp [hm] at h
                | ok content =>
                    simp only [hm, Bool.not_true, Bool.false_eq_true, if_false, Except.ok.injEq,
                      Prod.mk.injEq] at h
                    obtain ⟨rfl, rfl⟩ := h
                    refine ⟨⟨fun o ho => ?_, rfl, rfl⟩, by simp [hyes], content,
                      hkey _ (messageContent_signal hm), ?_⟩
                    · rw [view_set_append _ _ _ _ _ _ _ o ho, hframe.others o ho]
                    · rw [hcursor]
                      simp only [View.accept, view_cursor, hev, if_true]
                      rw [← hitems]
                      unfold State.view
                      rw [filter_key_append_new, if_pos rfl]
                      simp [State.supersede, View.supersede]

end Enqueue

end Discord
end PickleInfra
