import PickleInfra.Discord.Outbox
import PickleInfra.Durable.Prog

/-!
# `Discord.Run` — one run of `discord-ops-alerts.py` against its state file

`prepare` is everything `run` does before its first write: validation, the clock check, pruning and
queueing. `dispatch` settles claims of an interrupted run, and then hands due items to the webhook,
each with a durable claim before the call and its outcome written after it. The store is `state.json`,
absent before the first run; a question is one call of the sender.
-/

namespace PickleInfra
namespace Discord

open Python Durable

/-! ## The webhook -/

/-- A rate limit in seconds, as `send_discord` passes it on. -/
abbrev Delay := {d : ℚ // 1 ≤ d ∧ d ≤ 604800}

/-- How a call of the sender ends: the outcomes of `send_discord`, or an exception. -/
inductive Outcome where
  | sent (messageId : String)
  | uncertain (code : String)
  | failed (code : String)
  | rejected
  | rateLimited (delay : Delay)
  | raised
deriving DecidableEq

/-- A call of the sender: the claimed item, and the clock of the run that makes the call. -/
structure Post where
  item : Item
  now : ℚ
deriving DecidableEq

/-! ## What happens to an item -/

namespace Item

/-- A claim left by an interrupted run. -/
def interrupted (item : Item) : Item :=
  { item with delivery := .uncertain, code := some "INTERRUPTED" }

/-- The claim before the call. -/
def claimed (item : Item) : Item :=
  { item with attempts := item.attempts + 1, delivery := .attempted }

def exhausted (item : Item) : Item :=
  { item with delivery := .failed, code := some "RETRIES_EXHAUSTED" }

/-- The claimed item after the sender ended. -/
def recorded (item : Item) (now : ℚ) : Outcome → Item
  | .sent messageId => { item with
      delivery := .sent, messageId := some messageId, code := some "ACKNOWLEDGED" }
  | .uncertain code => { item with delivery := .uncertain, code := some code }
  | .failed code    => { item with delivery := .failed, code := some code }
  | .raised         => { item with delivery := .uncertain, code := some "SENDER_INTERRUPTED" }
  | .rateLimited d  =>
    -- an explicit rate limit is a known rejection, not a failed delivery attempt
    { item with
      delivery := .pending, code := some "RATE_LIMITED", attempts := item.attempts - 1
      rateLimitCount := item.rateLimitCount + 1, nextAttempt := now + d.val }
  | .rejected       =>
    let item := { item with
      delivery := .pending, code := some "REJECTED"
      nextAttempt := now + if item.attempts = 1 then 60 else 300 }
    if maxAttempts ≤ item.attempts then item.exhausted else item

end Item

/-- The cursor of an item's key after `remember_service_delivery`: an alarm of the cursor's own open
    incident that was handed to the webhook leaves a receipt. -/
def Cursor.remember (cursor : Cursor) (item : Item) : Cursor :=
  match item.service, cursor.report with
  | some tag, some report =>
    match tag.incident with
    | some incident =>
      if tag.event = .alarm && (item.delivery = .sent || item.delivery = .uncertain)
          && report.incident = some incident && report.openedAt = tag.openedAt then
        { cursor with receipt := some ⟨incident, tag.openedAt, item.delivery = .uncertain⟩ }
      else cursor
    | none => cursor
  | _, _ => cursor

/-- `remember_service_delivery` -/
def State.remember (s : State) (item : Item) : State :=
  match item.id with
  | .connectionTest => s
  | .event key _    =>
    match s.observations.get? key with
    | some cursor => { s with observations := s.observations.set key (cursor.remember item) }
    | none        => s

/-! ## `dispatch` -/

/-- The arguments of one run: the configuration, the clock, the mode, and what the collectors say of
    each source. -/
structure RunInput where
  config : Config
  now : ℚ
  testMessage : Bool
  /-- The condition and freshness of a plain source. -/
  plain : Source → Signal × Signal
  /-- The condition and observer report of a `service_health` source. -/
  service : Source → Option ServiceReport × Option ServiceReport
  /-- The host, the webhook file, the state directory and the lock are as `run` requires. -/
  hostReady : Bool

abbrev AlertProg := Prog (Option State) Post Outcome

/-- `atomic_json(path, state)` -/
def save (s : State) (next : AlertProg α) : AlertProg α := .write (fun _ => some s) next

/-- The first loop of `dispatch`: interrupted claims become `UNCERTAIN`. The outbox is
    `done ++ todo`. -/
def settle (onlyTest : Bool) (done : List Item) : List Item → State → AlertProg State
  | [], s           => .ret s
  | item :: rest, s =>
    if item.delivery = .attempted && !(onlyTest && item.id ≠ .connectionTest) then
      let s := ({ s with outbox := done ++ item.interrupted :: rest }).remember item.interrupted
      save s (settle onlyTest (done ++ [item.interrupted]) rest s)
    else settle onlyTest (done ++ [item]) rest s

/-- The filters of the second loop of `dispatch`, up to the attempt budget of a run. -/
def RunInput.tries (x : RunInput) (eligible : List ItemId) (item : Item) : Bool :=
  (match item.id with
    | .connectionTest => true
    | .event key _    => (x.config.sources.map Source.name).contains key.1)
  && !(item.service.isSome && !eligible.contains item.id)
  && !(x.testMessage && item.id ≠ .connectionTest)
  && item.delivery = .pending && item.nextAttempt ≤ x.now

/-- The state after the sender ended, for the item claimed between `done` and `rest`. -/
def State.record (s : State) (done : List Item) (item : Item) (rest : List Item) (now : ℚ)
    (outcome : Outcome) : State :=
  let item := item.recorded now outcome
  let retry := match outcome with
    | .rateLimited d => some (now + d.val)
    | _              => s.webhookRetryAfter
  ({ s with outbox := done ++ item :: rest, webhookRetryAfter := retry }).remember item

/-- The second loop of `dispatch`; it returns how many items were sent. -/
def sendDue (x : RunInput) (eligible : List ItemId) (done : List Item) :
    List Item → Nat → Nat → State → AlertProg (Nat × State)
  | [], _, sent, s                  => .ret (sent, s)
  | item :: rest, attempted, sent, s =>
    if !x.tries eligible item then
      sendDue x eligible (done ++ [item]) rest attempted sent s
    else if 3 ≤ attempted then .ret (sent, s)
    else if maxAttempts ≤ item.attempts then
      let s := { s with outbox := done ++ item.exhausted :: rest }
      save s (sendDue x eligible (done ++ [item.exhausted]) rest attempted sent s)
    else
      let s := { s with outbox := done ++ item.claimed :: rest }
      attempt (fun _ => some s) ⟨item.claimed, x.now⟩
        (fun outcome _ => some (s.record done item.claimed rest x.now outcome)) fun outcome =>
        let s := s.record done item.claimed rest x.now outcome
        match outcome with
        | .rateLimited _ => .ret (sent, s)
        | .sent _        => sendDue x eligible (done ++ [item.claimed.recorded x.now outcome]) rest
            (attempted + 1) (sent + 1) s
        | _              => sendDue x eligible (done ++ [item.claimed.recorded x.now outcome]) rest
            (attempted + 1) sent s

def dispatch (x : RunInput) (eligible : List ItemId) (s : State) : AlertProg (Nat × State) := do
  let s ← settle x.testMessage [] s.outbox s
  if x.now < s.webhookRetryAfter.getD 0 then .ret (0, s)
  else sendDue x eligible [] s.outbox 0 0 s

/-! ## `run` -/

/-- The prune of `run`: confirmed deliveries move behind the unresolved ones, the last hundred of
    them are kept. -/
def prune (outbox : List Item) : List Item :=
  let confirmed := fun (item : Item) => decide (item.delivery = .sent ∨ item.delivery = .superseded)
  let completed := outbox.filter confirmed
  outbox.filter (fun item => !confirmed item) ++ completed.drop (completed.length - 100)

/-- One dimension of a `service_health` source: what is queued, and what becomes eligible. -/
def observeService (x : RunInput) (source : Source) (dimension : Dimension)
    (report : Option ServiceReport) (acc : State × List ItemId) :
    Except AlertExn (State × List ItemId) :=
  match enqueueServiceHealth acc.1 x.config source dimension report x.now with
  | .error e         => .error e
  | .ok (s, false)   => .ok (s, acc.2)
  | .ok (s, true)    =>
    let eligible := s.outbox.filter fun item =>
      item.isServiceOf (source.name, dimension) &&
        (match item.service, report with
          | some tag, some report => serviceMatches tag report
          | _, _                  => false)
    .ok (s, acc.2 ++ eligible.map Item.id)

/-- Both dimensions of one source, in the order of the collector's dictionary. -/
def observeSource (x : RunInput) (source : Source) (acc : State × List ItemId) :
    Except AlertExn (State × List ItemId) :=
  match source.kind with
  | .serviceHealth .. => do
    let acc ← observeService x source .condition (x.service source).1 acc
    observeService x source .observer (x.service source).2 acc
  | _                 => do
    let s ← enqueue acc.1 x.config source .condition (x.plain source).1 x.now
    let s ← enqueue s x.config source .freshness (x.plain source).2 x.now
    .ok (s, acc.2)

def observeAll (x : RunInput) : List Source → State × List ItemId →
    Except AlertExn (State × List ItemId)
  | [], acc             => .ok acc
  | source :: rest, acc => do
    let acc ← observeSource x source acc
    observeAll x rest acc

/-- The item of `--test-message`. -/
def RunInput.testItem (x : RunInput) : Item where
  id := .connectionTest
  content := .test x.config.hostLabel
  delivery := .pending
  attempts := 0
  nextAttempt := x.now

/-- `--test-message`: one item, once. -/
def enqueueTest (x : RunInput) (s : State) : State :=
  if s.testEnqueued then s
  else { s with outbox := s.outbox ++ [x.testItem], testEnqueued := true }

/-- The state file, validated, or `new_state()`. -/
def loadState : Option State → Except AlertExn State
  | some s => validateState s
  | none   => .ok {}

/-- The queueing step of `run`. -/
def queue (x : RunInput) (s : State) : Except AlertExn (State × List ItemId) :=
  if x.testMessage then .ok (enqueueTest x s, []) else observeAll x x.config.sources (s, [])

/-- `run` up to its first write: the state to write, and the eligible service items. -/
def prepare (x : RunInput) (disk : Option State) : Except AlertExn (State × List ItemId) :=
  match loadState disk with
  | .error e => .error e
  | .ok s    =>
    if x.now + 1 < s.lastRun.getD 0 then .error (.alert "시스템 시각이 이전 실행 시각보다 일러요.")
    else match queue x { s with outbox := prune s.outbox } with
      | .error e           => .error e
      | .ok (s, eligible) =>
        if maxOutbox < s.outbox.length then .error (.alert "알림 대기열이 가득 찼어요.")
        else .ok ({ s with lastRun := some x.now }, eligible)

/-- What `run` returns. -/
structure RunReport where
  testMode : Bool
  sentNow : Nat
  pending : Nat
  sent : Nat
  uncertain : Nat
  failed : Nat
deriving DecidableEq, Repr

def RunReport.of (x : RunInput) (sentNow : Nat) (s : State) : RunReport :=
  let count := fun d => s.outbox.countP (fun item => decide (item.delivery = d))
  { testMode := x.testMessage, sentNow
    pending := count .pending, sent := count .sent
    uncertain := count .uncertain, failed := count .failed }

/-- `run`, without `inspect`. -/
def run (x : RunInput) : AlertProg (Except AlertExn RunReport) :=
  if !x.hostReady then .ret (.error (.alert "선택한 호스트에서 관리자 권한으로 실행하세요."))
  else .look fun disk =>
    match prepare x disk with
    | .error e           => .ret (.error e)
    | .ok (s, eligible) => save s do
      let (sentNow, s) ← dispatch x eligible s
      .ret (.ok (.of x sentNow s))

end Discord
end PickleInfra
