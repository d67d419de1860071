import PickleInfra.Durable.Prog
import PickleInfra.Health.Collect

/-!
# `Health.Run` — one run of `service-health-monitor.py` against its state directory

`run` collects, persists the state, tries the open mail deliveries, and publishes the summary. The
store is the pair of files `state.json` and `summary.json`; the questions are calls of the mail
sender. Everything before the first `persist` has no durable effect, so a run that raises there is a
run that changes nothing.
-/

namespace PickleInfra
namespace Health

open Python Durable

/-- The two files of the state directory. -/
structure Disk where
  state : Option State
  summary : Option Summary

/-- A source's own machine or its observer's. -/
inductive Target where
  | own
  | observer
deriving DecidableEq, Repr

/-- Which delivery: of which source, of which of its two targets, for which event. -/
structure Slot where
  source : String
  target : Target
  event : MailEvent
deriving DecidableEq, Repr

/-- A call of the sender: the delivery it is given, and where that delivery stands. -/
structure Mailing where
  slot : Slot
  delivery : Delivery
deriving DecidableEq, Repr

def Entry.machine (e : Entry) : Target → Machine
  | .own      => e.own
  | .observer => e.observer

def Entry.setMachine (e : Entry) (t : Target) (m : Machine) : Entry :=
  match t with
  | .own      => { e with own := m }
  | .observer => { e with observer := m }

namespace State

def machine (s : State) (name : String) (t : Target) : Machine :=
  ((s.sources.get? name).getD {}).machine t

def mail (s : State) (slot : Slot) : Option Delivery :=
  (s.machine slot.source slot.target).mail slot.event

def setMail (s : State) (slot : Slot) (d : Delivery) : State :=
  let entry := (s.sources.get? slot.source).getD {}
  let m := (entry.machine slot.target).setMail slot.event d
  { s with sources := s.sources.set slot.source (entry.setMachine slot.target m) }

end State

abbrev MonitorProg := Prog Disk Mailing MailAnswer

/-- `persist`, that is `atomic_json(path, state)` -/
def persist (state : State) : MonitorProg Unit :=
  .write (fun d => { d with state := some state }) (.ret ())

/-- `atomic_json(directory / 'summary.json', summary)` -/
def publish (summary : Summary) : MonitorProg Unit :=
  .write (fun d => { d with summary := some summary }) (.ret ())

/-- `deliver`, on the delivery in `slot` of the state in memory. -/
def deliver (now : ℚ) (slot : Slot) (state : State) : MonitorProg State :=
  match state.mail slot with
  | none   => .ret state
  | some d =>
    if d.isDue now then
      let claimed := state.setMail slot d.claim
      let recorded := fun a => claimed.setMail slot (d.claim.record now a)
      attempt (fun disk => { disk with state := some claimed }) ⟨slot, d.claim⟩
        (fun a disk => { disk with state := some (recorded a) }) (fun a => .ret (recorded a))
    else .ret state

/-- The delivery loop of `run`. -/
def deliverAll (now : ℚ) : List Slot → State → MonitorProg State
  | [], state           => .ret state
  | slot :: rest, state => do
    let state ← deliver now slot state
    deliverAll now rest state

/-- The deliveries of one source that this run may try: not those of a suppressed observer. -/
def sourceSlots (summary : Summary) (name : String) : List Slot :=
  let own := [⟨name, .own, .failed⟩, ⟨name, .own, .recovered⟩]
  if ((summary.sources.get? name).bind Row.suppressedBy).isSome then own
  else own ++ [⟨name, .observer, .failed⟩, ⟨name, .observer, .recovered⟩]

/-- What one run is given: the configuration, the clock, the reports, and whether `smtp_sender`
    accepts the mail configuration. -/
structure RunInput where
  config : Config
  now : ℚ
  reader : Reader
  mailReady : Bool

/-- The part of `run` after the collected state is persisted. -/
def deliverAndPublish (x : RunInput) (state : State) (summary : Summary) :
    MonitorProg (Except HealthExn Summary) :=
  if !x.config.notificationsEnabled then do
    publish summary
    .ret (.ok summary)
  else if !x.mailReady then
    .ret (.error (.own "MAIL_CONFIG_INVALID"))
  else do
    let _ ← deliverAll x.now (x.config.sources.flatMap (fun s => sourceSlots summary s.name)) state
    publish summary
    .ret (.ok summary)

/-- `run`, without `dry_run`. -/
def run (x : RunInput) : MonitorProg (Except HealthExn Summary) :=
  .look fun disk =>
    match collect x.config (disk.state.getD {}) x.now x.reader x.config.notificationsEnabled with
    | (_, .error e)        => .ret (.error e)
    | (state, .ok summary) => do
      persist state
      deliverAndPublish x state summary

/-- `run` with `dry_run`: the collection on a copy of the state, with nothing persisted. -/
def dryRun (x : RunInput) : MonitorProg (Except HealthExn Summary) :=
  .look fun disk => .ret (collect x.config (disk.state.getD {}) x.now x.reader false).2

end Health
end PickleInfra
