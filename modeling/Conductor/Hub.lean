import Conductor.Session

/-!
Hubs: the delivery of signals to many sessions over one plan. All signals pass through one queue
and each is handled to the end before the next is taken. What the plan reports meanwhile is
queued behind. The plan is subscribed to an event as long as some session waits for it.
-/

namespace Conductor

/-- What one run did. -/
structure RunReport where
  /-- Signals taken off the queue. -/
  signals : Nat
  /-- Deliveries to sessions; one signal may reach several. -/
  deliveries : Nat
  /-- Every outcome but those of sessions that ignored the signal, in order. -/
  outcomes : List (String × Outcome)
  /-- Whether the run stopped at its limit with signals left. -/
  truncated : Bool
deriving DecidableEq

namespace RunReport

/-- The report on a run that stops without taking another signal. -/
def ended (truncated : Bool) : RunReport := ⟨0, 0, [], truncated⟩

/-- The report on two parts of a run, one after the other. -/
def followedBy (a b : RunReport) : RunReport :=
  ⟨a.signals + b.signals, a.deliveries + b.deliveries, a.outcomes ++ b.outcomes, b.truncated⟩

end RunReport

structure Hub where
  plan : Plan
  /-- The sessions in the order in which they get a signal. -/
  sessions : List Session
  queue : List Signal
  /-- How many sessions wait for each event. -/
  interest : Dict Interest Nat
  config : HubConfig

namespace Hub

def new (plan : Plan) : Hub := ⟨plan, [], [], .empty, {}⟩

/-- Takes a session in, in place of any other with its identifier. -/
def add (h : Hub) (s : Session) : Hub :=
  if h.sessions.any fun t => t.id == s.id then
    { h with sessions := h.sessions.map fun t => if t.id = s.id then s else t }
  else { h with sessions := h.sessions ++ [s] }

def session? (h : Hub) (id : String) : Option Session := h.sessions.find? fun s => s.id == id

/-- Puts a session back after it has acted on the plan. -/
def put (h : Hub) (c : Scene) : Hub :=
  { h with
    plan := c.plan
    sessions := h.sessions.map fun s => if s.id = c.session.id then c.session else s }

/-- Counts a change of a session's interests. The plan hears of the first session that waits for
an event and of the last one that does no longer. -/
def count (h : Hub) : InterestChange → Hub
  | .subscribe task event =>
    let n := (h.interest.get? (task, event)).getD 0
    let h := { h with interest := h.interest.insert (task, event) (n + 1) }
    if n = 0 then { h with plan := h.plan.subscribe task event } else h
  | .unsubscribe task event =>
    match h.interest.get? (task, event) with
    | none => h
    | some n =>
      if n ≤ 1 then
        { h with
          interest := h.interest.erase (task, event)
          plan := h.plan.unsubscribe task event }
      else { h with interest := h.interest.insert (task, event) (n - 1) }

/-- Puts a session back and counts the changes of its interests. -/
def settle (h : Hub) (c : Scene) : Hub :=
  let (changes, session) := c.session.takeInterestChanges
  changes.foldl count (h.put { c with session })

/-- Starts a session. -/
def start (h : Hub) (id : String) : Except Error Outcome × Hub :=
  match h.session? id with
  | none => (.error (.unknownContext id), h)
  | some session =>
    let (result, c) := Scene.start ⟨session, h.plan⟩
    (result, h.settle c)

/-- Stops a session, if it is known. -/
def stop (h : Hub) (id : String) : Option Outcome × Hub :=
  match h.session? id with
  | none => (none, h)
  | some session =>
    let (outcome, c) := Scene.stop ⟨session, h.plan⟩
    (some outcome, h.settle c)

/-- Removes the sessions that have ended. -/
def reap (h : Hub) : List Session × Hub :=
  let (ended, left) := h.sessions.partition fun s => s.status.isTerminal
  (ended, { h with sessions := left })

/-- Queues a signal from outside. -/
def post (h : Hub) (signal : Signal) : Hub := { h with queue := h.queue ++ [signal] }

/-- Queues what the plan has reported. -/
def pump (h : Hub) : Nat × Hub :=
  let (signals, plan) := h.plan.poll
  (signals.length, { h with plan, queue := h.queue ++ signals })

/-- The sessions that want a signal. -/
def targets (h : Hub) (signal : Signal) : List String :=
  (h.sessions.filter fun s => s.wants signal).map Session.id

/-- Delivers a signal to a session. -/
def deliverTo (h : Hub) (signal : Signal) (id : String) : RunReport × Hub :=
  match h.session? id with
  | none => (.ended false, h)
  | some session =>
    let (outcome, c) := Scene.deliver ⟨session, h.plan⟩ signal
    let outcomes := if outcome = .ignored then [] else [(id, outcome)]
    ({ RunReport.ended false with deliveries := 1, outcomes }, h.settle c)

/-- Delivers a signal to sessions, one after the other. -/
def deliverAll (signal : Signal) : List String → Hub → RunReport × Hub
  | [], h => (.ended false, h)
  | id :: rest, h =>
    let (first, h) := h.deliverTo signal id
    let (others, h) := deliverAll signal rest h
    (first.followedBy others, h)

/-- The signals up to the first one that some session wants, that one, and the rest. -/
def splitQueue (h : Hub) : List Signal → List Signal × List Signal :=
  List.span fun signal => (h.targets signal).isEmpty

/-- Delivers signals as long as the limit allows, of which `delivered` deliveries are used up.
Every round takes off what nobody wants and delivers one signal at least once, so the fuel is
enough when it is what is left of the limit. -/
def runFor : Nat → Nat → Hub → RunReport × Hub
  | 0, _, h => (.ended !h.queue.isEmpty, h)
  | fuel + 1, delivered, h =>
    if delivered ≥ h.config.maxDeliveries then (.ended !h.queue.isEmpty, h)
    else
      match h.splitQueue h.queue with
      | (unwanted, []) =>
        ({ RunReport.ended false with signals := unwanted.length }, { h with queue := [] })
      | (unwanted, signal :: rest) =>
        let (round, h) := deliverAll signal (h.targets signal) { h with queue := rest }
        let (later, h) := runFor fuel (delivered + round.deliveries) h.pump.2
        ({ round with signals := unwanted.length + 1 }.followedBy later, h)

/-- Delivers signals until none is left or the limit of deliveries is reached. -/
def runUntilIdle (h : Hub) : RunReport × Hub := runFor h.config.maxDeliveries 0 h.pump.2

end Hub

end Conductor
