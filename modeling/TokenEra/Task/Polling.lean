import TokenEra.Lib.Run

/-!
# Polling of asynchronous tasks

A video task is charged when it is submitted and finished later, by whichever node polls it. A pass
of `RunTaskPollingOnce` first fails the tasks that have timed out, then lists the unfinished ones,
platform by platform, and visits them channel by channel, the channels at the same time. A visit
asks the upstream, changes the task object in memory, writes it to the database by a
compare-and-swap on the status the object had (`UpdateWithStatus`), and then settles the charge of a
task that succeeded or refunds that of one that failed.

The objects of a pass are shared: the visits find them in a map keyed by the upstream's id of the
task, so that two listed rows with one upstream id are two visits of one object. Any number of nodes
run passes over the same rows, and every database statement and every funding adjustment is a step
of its own.
-/

namespace TokenEra.TaskPolling

open Lib

/-! ### Tasks -/

inductive TaskStatus
  | notStart | submitted | queued | inProgress | failure | success | unknown
  /-- Any other text an upstream may answer. -/
  | other (text : String)
  deriving DecidableEq, Repr

def TaskStatus.isTerminal : TaskStatus → Bool
  | .failure => true
  | .success => true
  | _ => false

structure TaskFacts where
  taskID : String
  upstreamTaskID : String
  platform : String
  userId : Int
  channelId : Int
  submitTime : Int
  billingSource : String
  subscriptionId : Int
  perCallBilling : Bool
  deriving DecidableEq, Repr

structure Task extends TaskFacts where
  quota : Int
  status : TaskStatus
  failReason : String
  startTime : Int
  finishTime : Int
  progress : String
  resultURL : String
  data : String
  deriving DecidableEq, Repr

/-- Old rows have no upstream id of their own; their task id is the upstream's. -/
def TaskFacts.getUpstreamTaskID (t : TaskFacts) : String :=
  if t.upstreamTaskID ≠ "" then t.upstreamTaskID else t.taskID

def taskRefundLegacyCutoff : Int := 1771718400

def TaskFacts.isLegacy (t : TaskFacts) : Bool := 0 < t.submitTime && t.submitTime < taskRefundLegacyCutoff

inductive Funding
  | wallet (userId : Int)
  | subscription (id : Int)
  deriving DecidableEq, Repr

def TaskFacts.funding (t : TaskFacts) : Funding :=
  if t.billingSource = "subscription" ∧ 0 < t.subscriptionId then .subscription t.subscriptionId
  else .wallet t.userId

/-- The rows that the two queries for unfinished tasks list. -/
def Task.Unfinished (t : Task) : Prop := t.progress ≠ "100%" ∧ t.status ≠ .failure ∧ t.status ≠ .success

instance (t : Task) : Decidable t.Unfinished := inferInstanceAs (Decidable (_ ∧ _ ∧ _))

structure Snapshot where
  status : TaskStatus
  progress : String
  startTime : Int
  finishTime : Int
  failReason : String
  resultURL : String
  data : String
  deriving DecidableEq

def Task.snapshot (t : Task) : Snapshot :=
  ⟨t.status, t.progress, t.startTime, t.finishTime, t.failReason, t.resultURL, t.data⟩

/-! ### One visit, in memory -/

structure TaskInfo where
  status : TaskStatus
  reason : String
  url : String
  progress : String
  totalTokens : Int
  deriving DecidableEq, Repr

def failTaskInfo (reason : String) : TaskInfo := ⟨.failure, reason, "", "", 0⟩

inductive ErrorBody
  | undecodable | tooManyRequests | openAIError | unrecognized
  deriving DecidableEq, Repr

inductive Answer
  | failed
  | parsed (info : TaskInfo) (data : String) (body : ErrorBody)
  deriving DecidableEq, Repr

inductive Bill
  | none
  | settle (totalTokens : Int)
  | refund
  deriving DecidableEq, Repr

inductive Plan
  | stop
  /-- `UpdateWithStatus`; if `guarded`, the billing depends on winning it. -/
  | update (fromStatus : TaskStatus) (guarded : Bool) (bill : Bill)
  | bill (bill : Bill)
  deriving DecidableEq, Repr

/-- The settings, and whether the database counts the rows an update matches or those it changes. -/
structure Config where
  serverAddress : String
  taskTimeoutMinutes : Nat
  countsMatched : Bool

def buildProxyURL (cfg : Config) (taskID : String) : String :=
  cfg.serverAddress ++ "/v1/videos/" ++ taskID ++ "/content"

/-- An answer without a status that is an error. `none`: too many requests, wait for the next pass.
-/
def readStatus (info : TaskInfo) (body : ErrorBody) : Option TaskInfo :=
  if info.status = .other "" then
    match body with
    | .undecodable => some info
    | .tooManyRequests => none
    | .openAIError => some (failTaskInfo "upstream returned error")
    | .unrecognized => some (failTaskInfo "upstream returned unrecognized message")
  else some info

/-- The object and the billing for an answered status; `none` for a status that is not known. -/
def applyStatus (cfg : Config) (now : Int) (t : Task) (info : TaskInfo) : Option (Task × Bill) :=
  let shown (progress : String) := if info.progress ≠ "" then info.progress else progress
  match info.status with
  | .submitted => some ({ t with status := .submitted, progress := shown "10%" }, .none)
  | .queued => some ({ t with status := .queued, progress := shown "20%" }, .none)
  | .inProgress =>
    some ({ t with
      status := .inProgress, progress := shown "30%"
      startTime := if t.startTime = 0 then now else t.startTime }, .none)
  | .success =>
    some ({ t with
      status := .success, progress := shown "100%"
      finishTime := if t.finishTime = 0 then now else t.finishTime
      resultURL :=
        if info.url.startsWith "data:" then buildProxyURL cfg t.taskID
        else if info.url ≠ "" then info.url
        else buildProxyURL cfg t.taskID }, .settle info.totalTokens)
  | .failure =>
    some ({ t with
      status := .failure, progress := "100%"
      finishTime := if t.finishTime = 0 then now else t.finishTime
      failReason := info.reason }, if t.quota ≠ 0 then .refund else .none)
  | _ => none

def updateVideoSingleTask (cfg : Config) (now : Int) (t : Task) : Answer → Task × Plan
  | .failed => (t, .stop)
  | .parsed info data body =>
    match readStatus info body with
    | none => ({ t with data := data }, .stop)
    | some info =>
      match applyStatus cfg now { t with data := data } info with
      | none => ({ t with data := data, status := info.status }, .stop)
      | some (t', bill) =>
        if t'.status.isTerminal ∧ t.status ≠ t'.status then (t', .update t.status true bill)
        -- The billing flags of a terminal answer are kept here although no status is swapped.
        else if t.snapshot ≠ t'.snapshot then (t', .update t.status false bill)
        else (t', .bill bill)

def timeOut (cfg : Config) (now : Int) (t : Task) : Task × Plan :=
  let t' := { t with
    status := .failure, progress := "100%", finishTime := now
    failReason :=
      if t.isLegacy then "任务超时（旧系统遗留任务，不进行退款，请联系管理员）"
      else "任务超时（" ++ toString cfg.taskTimeoutMinutes ++ "分钟）"
    quota := if t.isLegacy then 0 else t.quota }
  (t', .update t.status true (if ¬ t.isLegacy ∧ t'.quota ≠ 0 then .refund else .none))

/-! ### The system -/

inductive Worker
  | start (todo : List Nat)
  | visiting (todo : List Nat)
  | done
  deriving DecidableEq

/-- No loop is started for a channel without tasks. -/
def Worker.launch : List Nat → Worker
  | [] => .done
  | todo => .start todo

def Worker.todo : Worker → List Nat
  | .start todo => todo
  | .visiting todo => todo
  | .done => []

@[simp] theorem Worker.todo_launch (todo : List Nat) : (Worker.launch todo).todo = todo := by
  cases todo <;> rfl

inductive Stage
  | idle
  /-- In `sweepTimedOutTasks`, with the timed out rows not looked at yet. -/
  | sweeping (todo : List Nat)
  /-- Between two platforms, with the listed rows of the platforms left. -/
  | polling (rest : List Nat)
  /-- In `UpdateVideoTasks` of a platform. -/
  | dispatched (rest : List Nat) (channels : List Int) (workers : Int → Worker)

/-- Who visits: the sweep of a pass or its loop over a channel. -/
abbrev Slot (n : Nat) := Fin n × Option Int

structure Caller (n : Nat) where
  slot : Slot n
  serial : Nat
  deriving DecidableEq

inductive Visit
  | idle
  | update (serial row : Nat) (fromStatus : TaskStatus) (guarded : Bool) (bill : Bill)
  | bill (serial row : Nat) (bill : Bill)
  /-- Funding is adjusted; `UpdateQuota` is left. -/
  | writeQuota (serial row : Nat) (quota : Int)
  deriving DecidableEq

inductive Kind
  | refund
  | settle (actualQuota : Int)
  deriving DecidableEq, Repr

/-- An executed refund or settlement: of which row, by whom, to which source and for which quota. -/
structure Entry (n : Nat) where
  row : Nat
  caller : Caller n
  kind : Kind
  funding : Funding
  quota : Int
  deriving DecidableEq

/-- The rows, and for each pass its objects and its place; what was billed; and which visits moved a
row to a terminal status by their compare-and-swap. -/
structure State (n : Nat) where
  rows : Nat → Task
  mem : Fin n → Nat → Task
  stage : Fin n → Stage
  visit : Slot n → Visit
  next : Nat
  ledger : List (Entry n)
  moved : List (Nat × Caller n)

def init (n : Nat) (rows : Nat → Task) : State n :=
  ⟨rows, fun _ => rows, fun _ => .idle, fun _ => .idle, 0, [], []⟩

/-- The result of `CacheGetChannel` and of the search for an adaptor. -/
inductive Lookup
  | found | noAdaptor | missing
  deriving DecidableEq, Repr

inductive Act (n : Nat)
  | sweep (p : Fin n) (cutoff : Int) (ids : List Nat)
  | sweepNext (p : Fin n) (now : Int)
  | list (p : Fin n) (ids : List Nat)
  /-- The next platform: its tasks without an upstream id are failed, the others dispatched. -/
  | platform (p : Fin n) (name : String) (fault : Bool)
  | channel (p : Fin n) (id : Int) (lookup : Lookup) (fault : Bool)
  | visit (p : Fin n) (channel : Int) (now : Int) (answer : Answer)
  | leave (p : Fin n) (channel : Int)
  | join (p : Fin n)
  | finish (p : Fin n)
  /-- `UpdateWithStatus`. -/
  | update (c : Slot n) (fault : Bool)
  /-- The funding of a refund or of a settlement, with what the adaptor answers and what the tokens
  cost. -/
  | bill (c : Slot n) (adjust : Int) (byTokens : Option Int) (ok : Bool)
  /-- `UpdateQuota`. -/
  | writeQuota (c : Slot n) (fault : Bool)

variable {n : Nat}

def State.setStage (s : State n) (p : Fin n) (st : Stage) : State n :=
  { s with stage := Function.update s.stage p st }

def State.setVisit (s : State n) (c : Slot n) (v : Visit) : State n :=
  { s with visit := Function.update s.visit c v }

def State.setMem (s : State n) (p : Fin n) (r : Nat) (t : Task) : State n :=
  { s with mem := Function.update s.mem p (Function.update (s.mem p) r t) }

def State.load (s : State n) (p : Fin n) : State n := { s with mem := Function.update s.mem p s.rows }

def Visit.ofBill (serial row : Nat) (b : Bill) : Visit :=
  if b = .none then .idle else .bill serial row b

def Plan.toVisit (serial row : Nat) : Plan → Visit
  | .stop => .idle
  | .update fromStatus guarded b => .update serial row fromStatus guarded b
  | .bill b => .ofBill serial row b

/-- `TaskBulkUpdateByID`: a status written to the rows whatever theirs is. -/
def taskBulkUpdateByID (rows : Nat → Task) (ids : List Nat) (f : Task → Task) : Nat → Task :=
  fun r => if r ∈ ids then f (rows r) else rows r

def failNull (t : Task) : Task := { t with status := .failure, progress := "100%" }

def failChannel (id : Int) (t : Task) : Task :=
  { t with
    failReason := "Failed to get channel info, channel ID: " ++ toString id
    status := .failure, progress := "100%" }

def withUpstream (mem : Nat → Task) (group : List Nat) : List Nat :=
  group.filter fun r => (mem r).getUpstreamTaskID ≠ ""

/-- `taskM[upstreamID]`: of the rows with one upstream id the last one is in the map. -/
def taskM (mem : Nat → Task) (group : List Nat) (upstreamID : String) : Option Nat :=
  ((withUpstream mem group).filter fun r => (mem r).getUpstreamTaskID = upstreamID).getLast?

/-- `taskChannelM[id]`, each upstream id with the object the map has for it. -/
def taskChannelM (mem : Nat → Task) (group : List Nat) (id : Int) : List Nat :=
  ((withUpstream mem group).filter fun r => (mem r).channelId = id).filterMap fun r =>
    taskM mem group (mem r).getUpstreamTaskID

/-- What `settleTaskBillingOnComplete` settles a task to. -/
def settleTarget (t : Task) (adjust totalTokens : Int) (byTokens : Option Int) : Option Int :=
  if t.perCallBilling then none
  else if 0 < adjust then some adjust
  else if 0 < totalTokens then byTokens
  else none

/-- `UpdateWithStatus` of the object of a visit, and what it leaves to do. -/
def updateWithStatus (cfg : Config) (s : State n) (c : Slot n) (serial r : Nat) (fromStatus : TaskStatus)
    (guarded : Bool) (b : Bill) (fault : Bool) : State n :=
  let t := s.mem c.1 r
  let lost := s.setVisit c (if guarded then .idle else .ofBill serial r b)
  if fault then lost
  else if (s.rows r).status ≠ fromStatus then lost
  else if t = s.rows r ∧ ¬ cfg.countsMatched then lost
  else
    { s with
      rows := Function.update s.rows r t
      moved :=
        if ¬ (s.rows r).status.isTerminal ∧ t.status.isTerminal then s.moved ++ [(r, ⟨c, serial⟩)] else s.moved
      visit := Function.update s.visit c (.ofBill serial r b) }

/-- `RefundTaskQuota` up to its funding adjustment. -/
def refundTaskQuota (s : State n) (c : Slot n) (serial r : Nat) (ok : Bool) : State n :=
  let t := s.mem c.1 r
  if t.quota = 0 ∨ ¬ ok then s.setVisit c .idle
  else
    { s with
      ledger := s.ledger ++ [⟨r, ⟨c, serial⟩, .refund, t.funding, t.quota⟩]
      visit := Function.update s.visit c (.writeQuota serial r 0) }

/-- `RecalculateTaskQuota` up to its funding adjustment; none is made for a difference of `0`. -/
def recalculateTaskQuota (s : State n) (c : Slot n) (serial r : Nat) (actualQuota : Int) (ok : Bool) : State n :=
  let t := s.mem c.1 r
  if actualQuota ≤ 0 then s.setVisit c .idle
  else if actualQuota - t.quota ≠ 0 ∧ ¬ ok then s.setVisit c .idle
  else
    { s with
      ledger := s.ledger ++ [⟨r, ⟨c, serial⟩, .settle actualQuota, t.funding, t.quota⟩]
      visit := Function.update s.visit c
        (if actualQuota - t.quota = 0 then .idle else .writeQuota serial r actualQuota) }

def settleTaskBillingOnComplete (s : State n) (c : Slot n) (serial r : Nat) (totalTokens adjust : Int)
    (byTokens : Option Int) (ok : Bool) : State n :=
  match settleTarget (s.mem c.1 r) adjust totalTokens byTokens with
  | none => s.setVisit c .idle
  | some actualQuota => recalculateTaskQuota s c serial r actualQuota ok

/-- The end of both: the quota is written to the object and, unless the database fails, to the row.
-/
def updateQuota (s : State n) (c : Slot n) (r : Nat) (quota : Int) (fault : Bool) : State n :=
  { s.setMem c.1 r { s.mem c.1 r with quota := quota } with
    rows := if fault then s.rows else Function.update s.rows r { s.rows r with quota := quota }
    visit := Function.update s.visit c .idle }

def beginVisit (s : State n) (c : Slot n) (r : Nat) (after : Task × Plan) : State n :=
  { s.setMem c.1 r after.1 with
    visit := Function.update s.visit c (after.2.toVisit s.next r)
    next := s.next + 1 }

/-- The platform that a pass goes on with: who visits which rows, with the rows after the bulk
update of those without an upstream id. -/
def State.dispatch (s : State n) (p : Fin n) (rest : List Nat) (name : String) (fault : Bool) : State n :=
  let group := rest.filter fun r => (s.mem p r).platform = name
  { s.setStage p (.dispatched (rest.filter fun r => (s.mem p r).platform ≠ name)
      ((withUpstream (s.mem p) group).map fun r => (s.mem p r).channelId) fun id =>
        .launch (taskChannelM (s.mem p) group id)) with
    rows :=
      if fault then s.rows
      else taskBulkUpdateByID s.rows (group.filter fun r => (s.mem p r).getUpstreamTaskID = "") failNull }

def State.setWorker (s : State n) (p : Fin n) (rest : List Nat) (channels : List Int) (workers : Int → Worker)
    (id : Int) (w : Worker) : State n :=
  s.setStage p (.dispatched rest channels (Function.update workers id w))

def step (cfg : Config) (s : State n) : Act n → Option (State n)
  | .sweep p cutoff ids =>
    match s.stage p with
    | .idle =>
      if ids.Nodup ∧ ∀ r ∈ ids, (s.rows r).Unfinished ∧ (s.rows r).submitTime < cutoff then
        some ((s.load p).setStage p (.sweeping ids))
      else none
    | _ => none
  | .sweepNext p now =>
    match s.stage p, s.visit (p, none) with
    | .sweeping (r :: todo), .idle =>
      some (beginVisit (s.setStage p (.sweeping todo)) (p, none) r (timeOut cfg now (s.mem p r)))
    | _, _ => none
  | .list p ids =>
    match s.stage p, s.visit (p, none) with
    | .sweeping [], .idle =>
      if ids.Nodup ∧ ∀ r ∈ ids, (s.rows r).Unfinished then some ((s.load p).setStage p (.polling ids))
      else none
    | _, _ => none
  | .platform p name fault =>
    match s.stage p with
    | .polling rest =>
      if (rest.filter fun r => (s.mem p r).platform = name) = [] then none
      else some (s.dispatch p rest name fault)
    | _ => none
  | .channel p id lookup fault =>
    match s.stage p with
    | .dispatched rest channels workers =>
      match workers id with
      | .start todo =>
        match lookup with
        | .found => some (s.setWorker p rest channels workers id (.visiting todo))
        | .noAdaptor => some (s.setWorker p rest channels workers id .done)
        | .missing =>
          some { s.setWorker p rest channels workers id .done with
            rows := if fault then s.rows else taskBulkUpdateByID s.rows todo (failChannel id) }
      | _ => none
    | _ => none
  | .visit p id now answer =>
    match s.stage p, s.visit (p, some id) with
    | .dispatched rest channels workers, .idle =>
      match workers id with
      | .visiting (r :: todo) =>
        some (beginVisit (s.setWorker p rest channels workers id (.visiting todo)) (p, some id) r
          (updateVideoSingleTask cfg now (s.mem p r) answer))
      | _ => none
    | _, _ => none
  | .leave p id =>
    match s.stage p, s.visit (p, some id) with
    | .dispatched rest channels workers, .idle => some (s.setWorker p rest channels workers id .done)
    | _, _ => none
  | .join p =>
    match s.stage p with
    | .dispatched rest channels workers =>
      if ∀ id ∈ channels, workers id = .done ∧ s.visit (p, some id) = .idle then
        some (s.setStage p (.polling rest))
      else none
    | _ => none
  | .finish p =>
    match s.stage p with
    | .polling _ => some (s.setStage p .idle)
    | _ => none
  | .update c fault =>
    match s.visit c with
    | .update serial r fromStatus guarded b => some (updateWithStatus cfg s c serial r fromStatus guarded b fault)
    | _ => none
  | .bill c adjust byTokens ok =>
    match s.visit c with
    | .bill serial r .refund => some (refundTaskQuota s c serial r ok)
    | .bill serial r (.settle totalTokens) =>
      some (settleTaskBillingOnComplete s c serial r totalTokens adjust byTokens ok)
    | _ => none
  | .writeQuota c fault =>
    match s.visit c with
    | .writeQuota _ r quota => some (updateQuota s c r quota fault)
    | _ => none

/-! ### What a step can do -/

inductive Steps (cfg : Config) (s : State n) : Act n → State n → Prop
  | sweep {p : Fin n} {cutoff : Int} {ids : List Nat} (hst : s.stage p = .idle) (hnodup : ids.Nodup)
      (hopen : ∀ r ∈ ids, (s.rows r).Unfinished) :
      Steps cfg s (.sweep p cutoff ids) ((s.load p).setStage p (.sweeping ids))
  | sweepNext {p : Fin n} {now : Int} {r : Nat} {todo : List Nat} (hst : s.stage p = .sweeping (r :: todo))
      (hidle : s.visit (p, none) = .idle) :
      Steps cfg s (.sweepNext p now)
        (beginVisit (s.setStage p (.sweeping todo)) (p, none) r (timeOut cfg now (s.mem p r)))
  | list {p : Fin n} {ids : List Nat} (hst : s.stage p = .sweeping []) (hidle : s.visit (p, none) = .idle)
      (hnodup : ids.Nodup) (hopen : ∀ r ∈ ids, (s.rows r).Unfinished) :
      Steps cfg s (.list p ids) ((s.load p).setStage p (.polling ids))
  | platform {p : Fin n} {name : String} {fault : Bool} {rest : List Nat} (hst : s.stage p = .polling rest) :
      Steps cfg s (.platform p name fault) (s.dispatch p rest name fault)
  | channel {p : Fin n} {id : Int} {lookup : Lookup} {fault : Bool} {rest : List Nat} {channels : List Int}
      {workers : Int → Worker} {todo : List Nat} {w : Worker}
      (hst : s.stage p = .dispatched rest channels workers) (hw : workers id = .start todo)
      (hlookup : lookup ≠ .missing) (hw' : w = .visiting todo ∨ w = .done) :
      Steps cfg s (.channel p id lookup fault) (s.setWorker p rest channels workers id w)
  | missing {p : Fin n} {id : Int} {fault : Bool} {rest : List Nat} {channels : List Int}
      {workers : Int → Worker} {todo : List Nat} (hst : s.stage p = .dispatched rest channels workers)
      (hw : workers id = .start todo) :
      Steps cfg s (.channel p id .missing fault)
        { s.setWorker p rest channels workers id .done with
          rows := if fault then s.rows else taskBulkUpdateByID s.rows todo (failChannel id) }
  | visit {p : Fin n} {id : Int} {now : Int} {answer : Answer} {rest : List Nat} {channels : List Int}
      {workers : Int → Worker} {r : Nat} {todo : List Nat} (hst : s.stage p = .dispatched rest channels workers)
      (hidle : s.visit (p, some id) = .idle) (hw : workers id = .visiting (r :: todo)) :
      Steps cfg s (.visit p id now answer)
        (beginVisit (s.setWorker p rest channels workers id (.visiting todo)) (p, some id) r
          (updateVideoSingleTask cfg now (s.mem p r) answer))
  | leave {p : Fin n} {id : Int} {rest : List Nat} {channels : List Int} {workers : Int → Worker}
      (hst : s.stage p = .dispatched rest channels workers) :
      Steps cfg s (.leave p id) (s.setWorker p rest channels workers id .done)
  | join {p : Fin n} {rest : List Nat} {channels : List Int} {workers : Int → Worker}
      (hst : s.stage p = .dispatched rest channels workers)
      (hdone : ∀ id ∈ channels, workers id = .done ∧ s.visit (p, some id) = .idle) :
      Steps cfg s (.join p) (s.setStage p (.polling rest))
  | finish {p : Fin n} {rest : List Nat} (hst : s.stage p = .polling rest) :
      Steps cfg s (.finish p) (s.setStage p .idle)
  | update {c : Slot n} {fault : Bool} {k r : Nat} {fromStatus : TaskStatus} {guarded : Bool} {b : Bill}
      (hv : s.visit c = .update k r fromStatus guarded b) :
      Steps cfg s (.update c fault) (updateWithStatus cfg s c k r fromStatus guarded b fault)
  | refund {c : Slot n} {adjust : Int} {byTokens : Option Int} {ok : Bool} {k r : Nat}
      (hv : s.visit c = .bill k r .refund) :
      Steps cfg s (.bill c adjust byTokens ok) (refundTaskQuota s c k r ok)
  | settle {c : Slot n} {adjust : Int} {byTokens : Option Int} {ok : Bool} {k r : Nat} {totalTokens : Int}
      (hv : s.visit c = .bill k r (.settle totalTokens)) :
      Steps cfg s (.bill c adjust byTokens ok)
        (settleTaskBillingOnComplete s c k r totalTokens adjust byTokens ok)
  | writeQuota {c : Slot n} {fault : Bool} {k r : Nat} {quota : Int} (hv : s.visit c = .writeQuota k r quota) :
      Steps cfg s (.writeQuota c fault) (updateQuota s c r quota fault)

theorem step_cases {cfg : Config} {s t : State n} {a : Act n} (h : step cfg s a = some t) : Steps cfg s a t := by
  cases a with simp only [step] at h
  | sweep p cutoff ids =>
    split at h
    case h_1 hst =>
      obtain ⟨⟨hnodup, hopen⟩, h⟩ := Option.ite_none_right_eq_some.1 h
      cases h
      exact .sweep hst hnodup fun r hr => (hopen r hr).1
    case h_2 => cases h
  | sweepNext p now =>
    split at h <;> cases h
    rename_i hst hidle
    exact .sweepNext hst hidle
  | list p ids =>
    split at h
    case h_1 hst hidle =>
      obtain ⟨⟨hnodup, hopen⟩, h⟩ := Option.ite_none_right_eq_some.1 h
      cases h
      exact .list hst hidle hnodup hopen
    case h_2 => cases h
  | platform p name fault =>
    split at h
    case h_1 rest hst =>
      obtain ⟨-, h⟩ := Option.ite_none_left_eq_some.1 h
      cases h
      exact .platform hst
    case h_2 => cases h
  | channel p id lookup fault =>
    split at h
    case h_1 rest channels workers hst =>
      split at h
      case h_1 todo hw =>
        cases lookup <;> cases h
        case found => exact .channel hst hw (by decide) (.inl rfl)
        case noAdaptor => exact .channel hst hw (by decide) (.inr rfl)
        case missing => exact .missing hst hw
      case h_2 => cases h
    case h_2 => cases h
  | visit p id now answer =>
    split at h
    case h_1 rest channels workers hst hidle =>
      split at h <;> cases h
      rename_i hw
      exact .visit hst hidle hw
    case h_2 => cases h
  | leave p id =>
    split at h <;> cases h
    rename_i hst _
    exact .leave hst
  | join p =>
    split at h
    case h_1 hst =>
      obtain ⟨hdone, h⟩ := Option.ite_none_right_eq_some.1 h
      cases h
      exact .join hst hdone
    case h_2 => cases h
  | finish p =>
    split at h <;> cases h
    rename_i hst
    exact .finish hst
  | update c fault =>
    split at h <;> cases h
    rename_i hv
    exact .update hv
  | bill c adjust byTokens ok =>
    split at h <;> cases h
    · rename_i hv
      exact .refund hv
    · rename_i hv
      exact .settle hv
  | writeQuota c fault =>
    split at h <;> cases h
    rename_i hv
    exact .writeQuota hv

end TokenEra.TaskPolling
