import ShardIndex.Bootstrap.World
import ShardIndex.Source.Stream

/-!
# A crew of tasks

Records that may be written in any order are given to a bounded crew of tasks.  One loop takes
records from a feed and starts a task for each while fewer than the limit are in flight; when no
more can be started it waits for one of them.  Each task first asks the resolver and then writes
its entry.  The first failure, of the feed or of a task that the loop has waited for, ends the
call: the tasks still in flight are given up, though some of them may get further before that.

Nothing fixes the order in which tasks move on, nor which of the open streams of the feed
delivers next.  A `Choice` names one thing that may happen now, `step` makes it happen if it can
(`none` otherwise), `Reachable` collects all states that any choices lead to, and a schedule is
a list of choices.  The call itself follows a schedule and then finishes by choices of its own
(`settle`), so that its outcome is defined under every schedule.
-/

namespace ShardIndex.Bootstrap

open Identity

/-! ## The feed -/

/-- Streams that are read together, the earlier ones first.  Some of them are open, and any open
one may deliver next; the others are opened one after another, each when there is room for it. -/
structure Feed where
  opened : List RecordStream := []
  /-- How many streams are still closed. -/
  closed : Nat := 0
  /-- The closed streams, counted from the last one. -/
  later : Nat → RecordStream := fun _ => { records := [] }

/-- What a feed hands over. -/
inductive Delivery
  | record (r : Record) (rest : Feed)
  | broken (e : Failure)
  /-- Nothing is left. -/
  | finished

namespace Feed

/-- The feed of one stream. -/
def ofStream (s : RecordStream) : Feed := { opened := [s] }

/-- The streams of a feed, in order. -/
def streams (f : Feed) : List RecordStream :=
  f.opened ++ (List.range f.closed).reverse.map f.later

/-- Open closed streams while there is room for them, and pass over those that have nothing. -/
def openMore (limit : Nat) (later : Nat → RecordStream) :
    Nat → List RecordStream → List RecordStream × Nat
  | 0, opened => (opened, 0)
  | k + 1, opened =>
    if opened.length < limit then
      let s := later k
      openMore limit later k (if s.isDone then opened else opened ++ [s])
    else (opened, k + 1)

/-- Close the streams that are through, and open others in their place. -/
def refill (limit : Nat) (f : Feed) : Feed :=
  let (opened, closed) :=
    openMore limit f.later f.closed (f.opened.filter fun s => !s.isDone)
  { f with opened := opened, closed := closed }

/-- Take the next item from the open stream of a given number, if there is one. -/
def pull (limit n : Nat) (f : Feed) : Option Delivery :=
  let f := f.refill limit
  -- after the refill, that no stream is open means that none is left
  match f.opened[n]? with
  | none => if f.opened.isEmpty && f.closed == 0 then some .finished else none
  | some s =>
    match s.records, s.failure with
    | r :: rest, _ =>
      some (.record r { f with opened := f.opened.set n { s with records := rest } })
    | [], some e => some (.broken e)
    | [], none => none

/-! ### How much is left -/

/-- How many records are left in some streams. -/
def total : List RecordStream → Nat
  | [] => 0
  | s :: rest => s.records.length + total rest

/-- How many records are left. -/
def size (f : Feed) : Nat := total f.streams

theorem total_append (l l' : List RecordStream) : total (l ++ l') = total l + total l' := by
  induction l with
  | nil => simp [total]
  | cons s l ih => simp [total, ih, Nat.add_assoc]

theorem total_filter_not_isDone (l : List RecordStream) :
    total (l.filter fun s => !s.isDone) = total l := by
  induction l with
  | nil => rfl
  | cons s l ih =>
    by_cases h : s.isDone
    · have hs : s.records = [] := by
        simp only [RecordStream.isDone, Bool.and_eq_true, List.isEmpty_iff] at h
        exact h.1
      simp [h, ih, total, hs]
    · simp [h, ih, total]

theorem total_set {l : List RecordStream} {n : Nat} {s : RecordStream} (h : l[n]? = some s)
    (s' : RecordStream) :
    total (l.set n s') + s.records.length = total l + s'.records.length := by
  induction l generalizing n with
  | nil => simp at h
  | cons x l ih =>
    cases n with
    | zero =>
      obtain rfl : x = s := by simpa using h
      simp only [List.set_cons_zero, total]
      omega
    | succ n =>
      have := ih (n := n) (by simpa using h)
      simp only [List.set_cons_succ, total]
      omega

/-- The closed streams of one more number begin with the one of that number. -/
theorem closed_succ (later : Nat → RecordStream) (k : Nat) :
    (List.range (k + 1)).reverse.map later = later k :: (List.range k).reverse.map later := by
  simp [List.range_succ]

theorem total_openMore (limit : Nat) (later : Nat → RecordStream) (k : Nat)
    (opened : List RecordStream) :
    total ((openMore limit later k opened).1 ++
        (List.range (openMore limit later k opened).2).reverse.map later) =
      total (opened ++ (List.range k).reverse.map later) := by
  induction k generalizing opened with
  | zero => rfl
  | succ k ih =>
    rw [openMore]
    split
    · rw [ih, closed_succ, total_append, total_append]
      by_cases h : (later k).isDone
      · have hs : (later k).records = [] := by
          simp only [RecordStream.isDone, Bool.and_eq_true, List.isEmpty_iff] at h
          exact h.1
        simp [h, total, hs]
      · simp [h, total, total_append]
        omega
    · rfl

/-- Opening and closing streams leaves all records where they are. -/
theorem size_refill (limit : Nat) (f : Feed) : (f.refill limit).size = f.size := by
  show total _ = total _
  simp only [refill, streams]
  rw [total_openMore, total_append, total_append, total_filter_not_isDone]

/-- Each record that is handed over is one less to come. -/
theorem size_of_pull_eq_record {limit n : Nat} {f rest : Feed} {r : Record}
    (h : f.pull limit n = some (.record r rest)) : rest.size + 1 = f.size := by
  rw [← size_refill limit f]
  simp only [pull] at h
  split at h
  · split at h <;> simp at h
  · rename_i s hs
    split at h
    · rename_i r' tail hr
      simp only [Option.some.injEq, Delivery.record.injEq] at h
      obtain ⟨-, rfl⟩ := h
      have := total_set hs { s with records := tail }
      simp only [size, streams, total_append, hr, List.length_cons] at this ⊢
      omega
    · simp at h
    · simp at h

end Feed

/-! ## Tasks -/

/-- How far a task has come. -/
inductive Progress
  | waiting
  /-- It has an id and is to write. -/
  | resolved (id : PartId)
  /-- It is through, with a failure or without. -/
  | finished (outcome : Option Failure)
deriving DecidableEq, Repr

/-- A task in flight. -/
structure Task where
  record : Record
  progress : Progress
deriving DecidableEq, Repr

/-- How many steps a task has still to make, the one by which it leaves included. -/
def Task.weight (t : Task) : Nat :=
  match t.progress with
  | .waiting => 3
  | .resolved _ => 2
  | .finished _ => 1

/-- How many steps some tasks have still to make. -/
def Task.weights : List Task → Nat
  | [] => 0
  | t :: rest => t.weight + weights rest

theorem Task.weight_pos (t : Task) : 0 < t.weight := by
  unfold Task.weight
  split <;> omega

theorem Task.weights_append (l l' : List Task) :
    Task.weights (l ++ l') = Task.weights l + Task.weights l' := by
  induction l with
  | nil => simp [Task.weights]
  | cons t l ih => simp [Task.weights, ih, Nat.add_assoc]

theorem Task.weights_set {l : List Task} {i : Nat} {t : Task} (h : l[i]? = some t) (t' : Task) :
    Task.weights (l.set i t') + t.weight = Task.weights l + t'.weight := by
  induction l generalizing i with
  | nil => simp at h
  | cons x l ih =>
    cases i with
    | zero =>
      obtain rfl : x = t := by simpa using h
      simp only [List.set_cons_zero, Task.weights]
      omega
    | succ i =>
      have := ih (i := i) (by simpa using h)
      simp only [List.set_cons_succ, Task.weights]
      omega

theorem Task.weights_eraseIdx {l : List Task} {i : Nat} {t : Task} (h : l[i]? = some t) :
    Task.weights (l.eraseIdx i) + t.weight = Task.weights l := by
  induction l generalizing i with
  | nil => simp at h
  | cons x l ih =>
    cases i with
    | zero =>
      obtain rfl : x = t := by simpa using h
      simp only [List.eraseIdx_cons_zero, Task.weights]
      omega
    | succ i =>
      have := ih (i := i) (by simpa using h)
      simp only [List.eraseIdx_cons_succ, Task.weights]
      omega

/-- One thing that may happen next. -/
inductive Choice
  /-- The loop takes a record from the open stream of a number and starts a task for it. -/
  | pull (stream : Nat)
  /-- The task of a number asks the resolver, or writes. -/
  | advance (task : Nat)
  /-- The loop waits for the task of a number, which is through. -/
  | join (task : Nat)
  /-- After a failure, the task of a number is given up. -/
  | abandon (task : Nat)
deriving DecidableEq, Repr

/-- A crew at work. -/
structure Crew (ρ ι : Type) where
  /-- What is still to be delivered. -/
  feed : Feed
  /-- Whether the loop has seen the end of the feed. -/
  exhausted : Bool := false
  tasks : List Task := []
  /-- How many tasks were waited for and had written. -/
  count : Nat := 0
  /-- The failure that ends the call, if there was one. -/
  failed : Option Failure := none
  world : World ρ ι

namespace Crew

variable {ρ ι : Type} [Resolver ρ] [Index ι]

/-- A crew before its first record. -/
def start (feed : Feed) (world : World ρ ι) : Crew ρ ι := { feed := feed, world := world }

/-- Whether the loop is to take a record next rather than wait for a task. -/
def hungry (limit : Nat) (c : Crew ρ ι) : Bool := !c.exhausted && c.tasks.length < limit

/-- What a task does when it moves on. -/
def work (mode : WriteMode) (w : World ρ ι) (t : Task) : Option (Task × World ρ ι) :=
  match t.progress with
  | .waiting =>
    match w.consult t.record with
    | (.id n, w) => some ({ t with progress := .resolved n }, w)
    | (.refused cause, w) => some ({ t with progress := .finished (some cause) }, w)
    | (.panicked, w) => some ({ t with progress := .finished (some .task) }, w)
  | .resolved n =>
    let (outcome, w) := w.writeEntry mode t.record n
    some ({ t with progress := .finished outcome }, w)
  | .finished _ => none

/-- Moving on brings a task nearer to its end. -/
theorem weight_lt_of_work {mode : WriteMode} {w w' : World ρ ι} {t t' : Task}
    (h : work mode w t = some (t', w')) : t'.weight < t.weight := by
  unfold work at h
  split at h
  · rename_i hp
    split at h <;> (obtain ⟨rfl, rfl⟩ := h; simp [Task.weight, hp])
  · rename_i hp
    obtain ⟨rfl, rfl⟩ := h
    simp [Task.weight, hp]
  · simp at h

/-- Make a choice happen, if it can. -/
def step (mode : WriteMode) (limit : Nat) (c : Crew ρ ι) : Choice → Option (Crew ρ ι)
  | .pull n =>
    if c.failed.isNone && c.hungry limit then
      match c.feed.pull limit n with
      | none => none
      | some .finished => some { c with exhausted := true }
      | some (.broken e) => some { c with failed := some e }
      | some (.record r rest) => some { c with feed := rest, tasks := c.tasks ++ [⟨r, .waiting⟩] }
    else none
  | .advance i =>
    match c.tasks[i]? with
    | none => none
    | some t =>
      match work mode c.world t with
      | none => none
      | some (t, w) => some { c with tasks := c.tasks.set i t, world := w }
  | .join i =>
    -- the loop waits only when it can start no task
    if c.failed.isNone && !c.hungry limit then
      match c.tasks[i]? with
      | some ⟨_, .finished none⟩ =>
        some { c with tasks := c.tasks.eraseIdx i, count := c.count + 1 }
      | some ⟨_, .finished (some e)⟩ =>
        some { c with tasks := c.tasks.eraseIdx i, failed := some e }
      | _ => none
    else none
  | .abandon i =>
    if c.failed.isSome && i < c.tasks.length then
      some { c with tasks := c.tasks.eraseIdx i }
    else none

/-- The states that choices lead to. -/
inductive Reachable (mode : WriteMode) (limit : Nat) (first : Crew ρ ι) : Crew ρ ι → Prop
  | start : Reachable mode limit first first
  | step {c c' : Crew ρ ι} {choice : Choice} :
      Reachable mode limit first c → step mode limit c choice = some c' →
      Reachable mode limit first c'

/-- Whether the call is over: the feed is at its end or has failed, and no task is left. -/
def isOver (c : Crew ρ ι) : Bool := (c.exhausted || c.failed.isSome) && c.tasks.isEmpty

/-- What the call returns when it is over. -/
def result (c : Crew ρ ι) : Except Failure Nat :=
  match c.failed with
  | some e => .error e
  | none => .ok c.count

/-! ## How long it goes on -/

/-- A bound on the number of choices still to be made. -/
def remaining (c : Crew ρ ι) : Nat :=
  4 * c.feed.size + Task.weights c.tasks + (if c.exhausted then 0 else 1) +
    (if c.failed.isSome then 0 else 1)

/-- Each choice that is made leaves fewer of them to be made. -/
theorem remaining_lt_of_step {mode : WriteMode} {limit : Nat} {c c' : Crew ρ ι} {choice : Choice}
    (h : c.step mode limit choice = some c') : c'.remaining < c.remaining := by
  cases choice with
  | pull n =>
    simp only [step] at h
    split at h
    · rename_i open_
      simp only [hungry, Bool.and_eq_true, Option.isNone_iff_eq_none, Bool.not_eq_eq_eq_not,
        Bool.not_true, decide_eq_true_eq] at open_
      obtain ⟨hfailed, hexhausted, -⟩ := open_
      split at h
      · simp at h
      · obtain rfl := Option.some.inj h
        simp [remaining, hexhausted]
      · obtain rfl := Option.some.inj h
        simp [remaining, hfailed]
      · rename_i r rest hpull
        obtain rfl := Option.some.inj h
        have := Feed.size_of_pull_eq_record hpull
        simp only [remaining, Task.weights_append, Task.weights, Task.weight]
        omega
    · simp at h
  | advance i =>
    simp only [step] at h
    split at h
    · simp at h
    · rename_i t ht
      split at h
      · simp at h
      · rename_i t' w hwork
        obtain rfl := Option.some.inj h
        have := Task.weights_set ht t'
        have := weight_lt_of_work hwork
        simp only [remaining]
        omega
  | join i =>
    simp only [step] at h
    split at h
    · split at h
      · rename_i ht
        obtain rfl := Option.some.inj h
        have := Task.weights_eraseIdx ht
        simp only [remaining, Task.weight] at this ⊢
        omega
      · rename_i e ht
        obtain rfl := Option.some.inj h
        have := Task.weights_eraseIdx ht
        simp only [remaining, Task.weight] at this ⊢
        split <;> simp <;> omega
      · simp at h
    · simp at h
  | abandon i =>
    simp only [step] at h
    split at h
    · rename_i hi
      simp only [Bool.and_eq_true, decide_eq_true_eq] at hi
      obtain rfl := Option.some.inj h
      obtain ⟨t, ht⟩ : ∃ t, c.tasks[i]? = some t := ⟨_, List.getElem?_eq_getElem hi.2⟩
      have := Task.weights_eraseIdx ht
      have := t.weight_pos
      simp only [remaining]
      omega
    · simp at h

/-! ## Schedules -/

/-- Make the choices of a schedule, passing over those that cannot happen when their turn
comes. -/
def follow (mode : WriteMode) (limit : Nat) : List Choice → Crew ρ ι → Crew ρ ι
  | [], c => c
  | choice :: rest, c => follow mode limit rest ((c.step mode limit choice).getD c)

/-- The choice made where no schedule makes one: fill the crew, then see the oldest task
through; after a failure, give up the oldest task. -/
def preferred (limit : Nat) (c : Crew ρ ι) : Choice :=
  if c.failed.isSome then .abandon 0
  else if c.hungry limit then .pull 0
  else
    match c.tasks with
    | ⟨_, .finished _⟩ :: _ => .join 0
    | _ => .advance 0

/-- Make preferred choices until none is left. -/
def settle (mode : WriteMode) (limit : Nat) (c : Crew ρ ι) : Crew ρ ι :=
  match h : c.step mode limit (c.preferred limit) with
  | none => c
  | some next =>
    have : next.remaining < c.remaining := remaining_lt_of_step h
    settle mode limit next
termination_by c.remaining

/-- The state in which a call under a schedule returns. -/
def finish (mode : WriteMode) (limit : Nat) (schedule : List Choice) (feed : Feed)
    (w : World ρ ι) : Crew ρ ι :=
  settle mode limit (follow mode limit schedule (start feed w))

/-- Write the records of a feed by a crew under a schedule, and count them. -/
def writeAll (mode : WriteMode) (limit : Nat) (schedule : List Choice) (feed : Feed)
    (w : World ρ ι) : Except Failure Nat × World ρ ι :=
  let c := finish mode limit schedule feed w
  (c.result, c.world)

end Crew

end ShardIndex.Bootstrap
