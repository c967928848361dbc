import ShardIndex.Proofs.Crew

/-!
# Crews of one

With room for one task a crew leaves nothing to a schedule.  The open stream of its feed is read to
its end before the next one is opened, and a task is through before the loop takes another record,
or sees that the feed is at its end or has broken off.

So at every moment it is settled what will come of the crew: the task in flight goes on, and if it
ends well the records that are left are resolved and written one after another (`Crew.outcome`).
No choice changes that (`Crew.IsSingle.step`), and in the end it is what the call returns
(`Crew.writeAll_one`).
-/

namespace ShardIndex

/-! ## Streams read one after another -/

namespace RecordStream

/-- Some streams read one after another, up to the first that breaks off. -/
def inTurn : List RecordStream → RecordStream
  | [] => { records := [] }
  | s :: rest =>
    match s.failure with
    | some _ => s
    | none => ⟨s.records ++ (inTurn rest).records, (inTurn rest).failure⟩

variable {s : RecordStream} {r : Record} {tail : List Record} {e : Failure}

lemma inTurn_singleton (s : RecordStream) : inTurn [s] = s := by
  obtain ⟨records, failure⟩ := s
  cases failure with
  | none => exact congrArg (RecordStream.mk · none) (List.append_nil records)
  | some e => rfl

/-- A stream that has nothing may be passed over. -/
lemma inTurn_cons_of_isDone (h : s.isDone) (rest : List RecordStream) :
    inTurn (s :: rest) = inTurn rest := by
  rw [inTurn, failure_of_isDone h, records_of_isDone h]
  rfl

lemma inTurn_live (l : List RecordStream) : inTurn (live l) = inTurn l := by
  induction l with
  | nil => rfl
  | cons s l ih =>
    by_cases h : s.isDone
    · rw [inTurn_cons_of_isDone h, live, List.filter_cons_of_neg (by simp [h])]
      exact ih
    · rw [live, List.filter_cons_of_pos (by simp [h]), inTurn, inTurn, ← live, ih]

/-- The first record of the first stream comes first. -/
lemma inTurn_of_records (h : s.records = r :: tail) (rest : List RecordStream) :
    inTurn (s :: rest) =
      ⟨r :: (inTurn ({ s with records := tail } :: rest)).records,
        (inTurn ({ s with records := tail } :: rest)).failure⟩ := by
  obtain ⟨records, failure⟩ := s
  obtain rfl : records = r :: tail := h
  cases failure <;> rfl

/-- A first stream without records breaks off. -/
lemma inTurn_of_failure (hrecords : s.records = []) (hfailure : s.failure = some e)
    (rest : List RecordStream) : inTurn (s :: rest) = ⟨[], some e⟩ := by
  obtain ⟨records, failure⟩ := s
  obtain rfl : records = [] := hrecords
  obtain rfl : failure = some e := hfailure
  rfl

/-- They are the first records of all the streams. -/
lemma records_inTurn_prefix (l : List RecordStream) : (inTurn l).records <+: recordsOf l := by
  induction l with
  | nil => exact List.prefix_refl _
  | cons s l ih =>
    rw [inTurn, recordsOf_cons]
    cases s.failure with
    | none => exact (List.prefix_append_right_inj s.records).2 ih
    | some e => exact List.prefix_append _ _

end RecordStream

namespace Bootstrap

open Identity RecordStream

/-- The only place in a list of one element at most. -/
lemma eq_singleton_of_getElem? {α : Type} {l : List α} {i : Nat} {x : α} (h : l.length ≤ 1)
    (hx : l[i]? = some x) : i = 0 ∧ l = [x] := by
  have hi := (List.getElem?_eq_some_iff.1 hx).1
  obtain rfl : i = 0 := by omega
  obtain ⟨y, rfl⟩ := List.length_eq_one_iff.1 (Nat.le_antisymm h hi)
  exact ⟨rfl, congrArg (fun x => [x]) (Option.some.inj hx)⟩

/-! ## The feed -/

namespace Feed

variable {f rest : Feed} {n : Nat} {r : Record} {e : Failure}

/-- What a feed hands over if one stream is open at a time. -/
def inTurn (f : Feed) : RecordStream := RecordStream.inTurn f.streams

lemma inTurn_refill (limit : Nat) (f : Feed) : (f.refill limit).inTurn = f.inTurn := by
  rw [inTurn, ← inTurn_live, live_refill, inTurn_live, inTurn]

lemma length_openMore_le {limit : Nat} {later : Nat → RecordStream} {k : Nat}
    {opened : List RecordStream} (h : opened.length ≤ limit) :
    (openMore limit later k opened).1.length ≤ limit := by
  induction k generalizing opened with
  | zero => exact h
  | succ k ih =>
    rw [openMore]
    split
    · rename_i hroom
      refine ih ?_
      split
      · exact h
      · rw [List.length_append]
        exact hroom
    · exact h

lemma length_opened_refill {limit : Nat} (h : f.opened.length ≤ limit) :
    (f.refill limit).opened.length ≤ limit :=
  length_openMore_le (Nat.le_trans (List.length_filter_le _ _) h)

/-- A feed with one stream open at most hands over what comes first. -/
lemma inTurn_of_pull_eq_record (h : f.opened.length ≤ 1)
    (hpull : f.pull 1 n = some (.record r rest)) :
    f.inTurn = ⟨r :: rest.inTurn.records, rest.inTurn.failure⟩ ∧ rest.opened.length ≤ 1 := by
  have one := length_opened_refill h
  rw [← inTurn_refill 1 f]
  rcases pull_eq_some hpull with ⟨hd, -⟩ | ⟨s, hs, ⟨r', tail, hr, hd⟩ | ⟨e, -, -, hd⟩⟩
  · cases hd
  · obtain ⟨rfl, rfl⟩ := Delivery.record.inj hd
    -- the stream that delivers is the only one
    obtain ⟨rfl, hopened⟩ := eq_singleton_of_getElem? one hs
    rw [inTurn, inTurn, streams, streams, hopened]
    exact ⟨inTurn_of_records hr _, Nat.le_refl 1⟩
  · cases hd

/-- It breaks off when nothing comes before. -/
lemma inTurn_of_pull_eq_broken (h : f.opened.length ≤ 1) (hpull : f.pull 1 n = some (.broken e)) :
    f.inTurn = ⟨[], some e⟩ := by
  rw [← inTurn_refill 1 f]
  rcases pull_eq_some hpull with ⟨hd, -⟩ | ⟨s, hs, ⟨r', tail, hr, hd⟩ | ⟨e', hr, he, hd⟩⟩
  · cases hd
  · cases hd
  · obtain rfl := Delivery.broken.inj hd
    obtain ⟨-, hopened⟩ := eq_singleton_of_getElem? (length_opened_refill h) hs
    rw [inTurn, streams, hopened]
    exact inTurn_of_failure hr he _

/-- It is at its end when nothing is left. -/
lemma inTurn_of_pull_eq_finished (hpull : f.pull 1 n = some .finished) :
    f.inTurn = ⟨[], none⟩ := by
  rw [← inTurn_refill 1 f]
  rcases pull_eq_some hpull with ⟨-, hopened, hclosed⟩ | ⟨s, hs, ⟨r', tail, hr, hd⟩ | ⟨e, -, -, hd⟩⟩
  · rw [inTurn, streams, hopened, hclosed]
    rfl
  · cases hd
  · cases hd

end Feed

/-! ## What will come of a crew -/

section Outcome

variable {ρ ι : Type} [Resolver ρ] [Index ι]

/-- What comes of a task and then, if it ends well, of the records of a stream. -/
def World.goOn (mode : WriteMode) (s : RecordStream) (count : Nat) :
    Option Failure × World ρ ι → Except Failure Nat × World ρ ι
  | (some e, w) => (.error e, w)
  | (none, w) => w.writeInOrder mode s.failure s.records (count + 1)

lemma World.writeInOrder_cons (mode : WriteMode) (s : RecordStream) (r : Record) (count : Nat)
    (w : World ρ ι) :
    w.writeInOrder mode s.failure (r :: s.records) count =
      World.goOn mode s count (w.writeRecord mode r) := by
  rw [writeInOrder]
  rcases w.writeRecord mode r with ⟨_ | e, w'⟩ <;> rfl

/-- What comes of a task that goes on alone. -/
def Task.complete (mode : WriteMode) (w : World ρ ι) (t : Task) : Option Failure × World ρ ι :=
  match t.progress with
  | .waiting => w.writeRecord mode t.record
  | .resolved n => w.writeEntry mode t.record n
  | .finished outcome => (outcome, w)

/-- By moving on a task comes nearer to the same end. -/
lemma Task.complete_of_work {mode : WriteMode} {w w' : World ρ ι} {t t' : Task}
    (h : Crew.work mode w t = some (t', w')) : t'.complete mode w' = t.complete mode w := by
  obtain ⟨r, p⟩ := t
  cases p with
  | waiting =>
    show _ = w.writeRecord mode r
    rw [World.writeRecord]
    rw [Crew.work] at h
    rcases hconsult : w.consult r with ⟨_ | _ | _, v⟩
    all_goals
      dsimp only at h
      rw [hconsult] at h
      obtain ⟨rfl, rfl⟩ := Prod.mk.inj (Option.some.inj h)
      rfl
  | resolved n =>
    obtain ⟨rfl, rfl⟩ := Prod.mk.inj (Option.some.inj h)
    rfl
  | finished outcome => cases h

end Outcome

namespace Crew

variable {ρ ι : Type} [Resolver ρ] [Index ι] {mode : WriteMode} {c c' : Crew ρ ι}
  {feed : Feed} {w : World ρ ι} {final : Except Failure Nat × World ρ ι}

/-- What will come of a crew of one. -/
def outcome (mode : WriteMode) (c : Crew ρ ι) : Except Failure Nat × World ρ ι :=
  match c.failed, c.tasks with
  | some e, _ => (.error e, c.world)
  | none, [] => c.world.writeInOrder mode c.feed.inTurn.failure c.feed.inTurn.records c.count
  | none, t :: _ => World.goOn mode c.feed.inTurn c.count (t.complete mode c.world)

/-- A crew of one of which it is settled what will come. -/
structure IsSingle (mode : WriteMode) (final : Except Failure Nat × World ρ ι) (c : Crew ρ ι) :
    Prop where
  /-- There is one task at most. -/
  alone : c.tasks.length ≤ 1
  /-- There is one open stream at most. -/
  opened : c.feed.opened.length ≤ 1
  /-- When it fails there is no task. -/
  idle : c.failed.isSome → c.tasks = []
  /-- The end that the loop has seen is the end. -/
  spent : c.exhausted → c.feed.inTurn = ⟨[], none⟩
  settled : c.outcome mode = final

omit [Resolver ρ] [Index ι] in
/-- The loop takes a record only when no task is in flight. -/
lemma tasks_eq_nil_of_hungry (h : c.hungry 1) : c.tasks = [] ∧ c.exhausted = false := by
  rw [hungry, Bool.and_eq_true, decide_eq_true_eq, Nat.lt_one_iff, List.length_eq_zero_iff,
    Bool.not_eq_true'] at h
  exact h.symm

lemma outcome_of_tasks {t : Task} (hfailed : c.failed = none)
    (htasks : c.tasks = [t]) :
    c.outcome mode = World.goOn mode c.feed.inTurn c.count (t.complete mode c.world) := by
  rw [outcome, hfailed, htasks]

lemma outcome_of_idle (hfailed : c.failed = none) (htasks : c.tasks = []) :
    c.outcome mode =
      c.world.writeInOrder mode c.feed.inTurn.failure c.feed.inTurn.records c.count := by
  rw [outcome, hfailed, htasks]

/-- No choice changes what will come of a crew of one. -/
lemma IsSingle.step (h : c.IsSingle mode final) {choice : Choice}
    (hstep : c.step mode 1 choice = some c') : c'.IsSingle mode final := by
  obtain ⟨_, -, move⟩ := move_of_step hstep
  cases move with
  | @pulled n r rest hfailed hungry hpull =>
    obtain ⟨htasks, hexhausted⟩ := tasks_eq_nil_of_hungry hungry
    obtain ⟨hfirst, hopened⟩ := Feed.inTurn_of_pull_eq_record h.opened hpull
    refine ⟨?_, hopened, fun hsome => ?_, fun hend => ?_, ?_⟩
    · rw [htasks]
      exact Nat.le_refl 1
    · rw [hfailed] at hsome
      cases hsome
    · rw [hexhausted] at hend
      cases hend
    · refine (outcome_of_tasks (t := ⟨r, .waiting⟩) ?_ ?_).trans ?_
      · exact hfailed
      · rw [htasks]
        rfl
      · rw [← h.settled, outcome_of_idle hfailed htasks, hfirst]
        exact (World.writeInOrder_cons mode rest.inTurn r c.count c.world).symm
  | ended hfailed hungry hpull =>
    exact ⟨h.alone, h.opened, h.idle, fun _ => Feed.inTurn_of_pull_eq_finished hpull, h.settled⟩
  | broke hfailed hungry hpull =>
    obtain ⟨htasks, -⟩ := tasks_eq_nil_of_hungry hungry
    refine ⟨h.alone, h.opened, fun _ => htasks, h.spent, ?_⟩
    rw [← h.settled, outcome_of_idle hfailed htasks, Feed.inTurn_of_pull_eq_broken h.opened hpull]
    rfl
  | @advanced i t t' w' ht hwork =>
    obtain ⟨rfl, htasks⟩ := eq_singleton_of_getElem? h.alone ht
    have hfailed : c.failed = none := by
      by_contra hne
      have hidle := h.idle (Option.isSome_iff_ne_none.2 hne)
      rw [htasks] at hidle
      cases hidle
    refine ⟨?_, h.opened, fun hsome => ?_, h.spent, ?_⟩
    · rw [List.length_set]
      exact h.alone
    · rw [hfailed] at hsome
      cases hsome
    · refine (outcome_of_tasks (t := t') ?_ ?_).trans ?_
      · exact hfailed
      · rw [htasks]
        rfl
      · rw [← h.settled, outcome_of_tasks hfailed htasks]
        exact congrArg _ (Task.complete_of_work hwork)
  | joined hfailed ht =>
    obtain ⟨rfl, htasks⟩ := eq_singleton_of_getElem? h.alone ht
    refine ⟨?_, h.opened, fun _ => ?_, h.spent, ?_⟩
    · rw [htasks]
      exact Nat.zero_le 1
    · rw [htasks]
      rfl
    · refine (outcome_of_idle ?_ ?_).trans ?_
      · exact hfailed
      · rw [htasks]
        rfl
      · rw [← h.settled, outcome_of_tasks hfailed htasks]
        rfl
  | failed hfailed ht =>
    obtain ⟨rfl, htasks⟩ := eq_singleton_of_getElem? h.alone ht
    refine ⟨?_, h.opened, fun _ => ?_, h.spent, ?_⟩
    · rw [htasks]
      exact Nat.zero_le 1
    · rw [htasks]
      rfl
    · rw [← h.settled, outcome_of_tasks hfailed htasks]
      rfl
  | abandoned hfailed ht =>
    -- there is nothing to give up
    rw [h.idle hfailed] at ht
    cases ht

/-- What will come of a crew of one is settled from the start. -/
lemma isSingle_of_reachable (hopened : feed.opened.length ≤ 1)
    (h : Reachable mode 1 (start feed w) c) :
    c.IsSingle mode (w.writeInOrder mode feed.inTurn.failure feed.inTurn.records 0) := by
  induction h with
  | start =>
    exact ⟨Nat.zero_le 1, hopened, fun _ => rfl, fun hend => (by cases hend), rfl⟩
  | step _ hstep ih => exact ih.step hstep

/-- **One record in flight.**  With room for one task, and one stream open at most, a crew does
under every schedule what resolving and writing the records one after another does, up to the
first failure of a stream, of the resolver, or of the index: it makes the same calls, and no
others, and returns the same. -/
theorem writeAll_one (hopened : feed.opened.length ≤ 1) (mode : WriteMode)
    (schedule : List Choice) (w : World ρ ι) :
    writeAll mode 1 schedule feed w =
      w.writeInOrder mode feed.inTurn.failure feed.inTurn.records 0 := by
  have reached : Reachable mode 1 (start feed w) (finish mode 1 schedule feed w) :=
    reachable_finish schedule feed w
  obtain ⟨-, -, -, spent, settled⟩ := isSingle_of_reachable hopened reached
  have hover : (finish mode 1 schedule feed w).isOver = true :=
    isOver_finish Nat.one_pos schedule feed w
  obtain ⟨hend, htasks⟩ := isOver_iff.1 hover
  rw [← settled]
  show (_, _) = _
  cases hfailed : (finish mode 1 schedule feed w).failed with
  | some e =>
    rw [outcome, result, hfailed]
  | none =>
    have hexhausted := hend.resolve_right (by rw [hfailed]; exact Bool.false_ne_true)
    rw [outcome_of_idle hfailed htasks, spent hexhausted, result, hfailed]
    rfl

end Crew

end Bootstrap

end ShardIndex
