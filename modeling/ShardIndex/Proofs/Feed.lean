import ShardIndex.Bootstrap.Strategy
import Mathlib.Data.List.Basic

/-!
# What a feed delivers

A feed opens and closes its streams as it goes.  None of that is seen in what it still has to
deliver: each record that is handed over is one of those that were left, and a stream breaks off
only with a failure of its own.
-/

namespace ShardIndex

/-- Where an element of a list stands. -/
lemma exists_split {α : Type} {l : List α} {n : Nat} {x : α} (h : l[n]? = some x) :
    ∃ before after, l = before ++ x :: after ∧ (∀ y, l.set n y = before ++ y :: after) ∧
      l.eraseIdx n = before ++ after := by
  obtain ⟨hn, rfl⟩ := List.getElem?_eq_some_iff.1 h
  refine ⟨l.take n, l.drop (n + 1), ?_, fun y => List.set_eq_take_append_cons_drop.trans ?_,
    List.eraseIdx_eq_take_drop_succ l n⟩
  · rw [List.getElem_cons_drop, List.take_append_drop]
  · rw [if_pos hn]

namespace RecordStream

lemma records_of_isDone {s : RecordStream} (h : s.isDone) : s.records = [] := by
  rw [isDone, Bool.and_eq_true] at h
  exact List.isEmpty_iff.1 h.1

lemma failure_of_isDone {s : RecordStream} (h : s.isDone) : s.failure = none := by
  rw [isDone, Bool.and_eq_true] at h
  exact Option.isNone_iff_eq_none.1 h.2

/-- A stream that breaks off delivers the first records of the whole stream. -/
lemma records_breakAfter_initial (s : RecordStream) (n : Nat) (cause : Failure) :
    (s.breakAfter n cause).records <+: s.records := by
  unfold breakAfter
  split
  · exact List.take_prefix _ _
  · exact List.prefix_refl _

/-- A stream that may be made to break off delivers nothing else. -/
lemma records_elim_breakAfter_subset (s : RecordStream) (fault : Option (Nat × Failure)) :
    (fault.elim s fun f => s.breakAfter f.1 f.2).records ⊆ s.records := by
  cases fault with
  | none => exact List.Subset.refl _
  | some f => exact (records_breakAfter_initial s f.1 f.2).subset

lemma failure_breakAfter_ne_none (s : RecordStream) (n : Nat) (cause : Failure) :
    (s.breakAfter n cause).failure ≠ none := by
  unfold breakAfter
  split
  · exact Option.some_ne_none cause
  · rename_i h
    exact fun hnone => h (Or.inr hnone)

/-- The records of some streams. -/
def recordsOf (l : List RecordStream) : List Record := l.flatMap records

/-- The failures with which some streams break off. -/
def failuresOf (l : List RecordStream) : List Failure := l.filterMap failure

@[simp] lemma recordsOf_append (l l' : List RecordStream) :
    recordsOf (l ++ l') = recordsOf l ++ recordsOf l' :=
  List.flatMap_append

@[simp] lemma recordsOf_cons (s : RecordStream) (l : List RecordStream) :
    recordsOf (s :: l) = s.records ++ recordsOf l :=
  List.flatMap_cons

@[simp] lemma failuresOf_append (l l' : List RecordStream) :
    failuresOf (l ++ l') = failuresOf l ++ failuresOf l' :=
  List.filterMap_append

/-- The streams that still have something. -/
def live (l : List RecordStream) : List RecordStream := l.filter fun s => !s.isDone

@[simp] lemma live_append (l l' : List RecordStream) : live (l ++ l') = live l ++ live l' :=
  List.filter_append ..

lemma recordsOf_live (l : List RecordStream) : recordsOf (live l) = recordsOf l := by
  induction l with
  | nil => rfl
  | cons s l ih =>
    by_cases h : s.isDone
    · rw [live, List.filter_cons_of_neg (by simp [h]), recordsOf_cons, records_of_isDone h]
      exact ih
    · rw [live, List.filter_cons_of_pos (by simp [h]), recordsOf_cons, recordsOf_cons]
      exact congrArg _ ih

lemma failuresOf_live (l : List RecordStream) : failuresOf (live l) = failuresOf l := by
  induction l with
  | nil => rfl
  | cons s l ih =>
    by_cases h : s.isDone
    · rw [live, List.filter_cons_of_neg (by simp [h])]
      exact ih.trans (List.filterMap_cons_none (failure_of_isDone h)).symm
    · rw [live, List.filter_cons_of_pos (by simp [h])]
      show List.filterMap _ _ = List.filterMap _ _
      rw [List.filterMap_cons, List.filterMap_cons]
      cases s.failure with
      | none => exact ih
      | some e => exact congrArg _ ih

end RecordStream

namespace Bootstrap.Feed

open RecordStream

/-- The records that are left. -/
def records (f : Feed) : List Record := recordsOf f.streams

/-- The failures that are left. -/
def failures (f : Feed) : List Failure := failuresOf f.streams

/-! ## Opening and closing streams -/

lemma live_openMore (limit : Nat) (later : Nat → RecordStream) (k : Nat)
    (opened : List RecordStream) :
    live ((openMore limit later k opened).1 ++
        (List.range (openMore limit later k opened).2).reverse.map later) =
      live (opened ++ (List.range k).reverse.map later) := by
  induction k generalizing opened with
  | zero => rfl
  | succ k ih =>
    rw [openMore]
    split
    · -- a stream that is passed over has nothing, so it does not count on the other side either
      rw [ih, closed_succ]
      by_cases h : (later k).isDone
      · rw [if_pos h, live_append, live_append]
        exact congrArg _ (List.filter_cons_of_neg (by simp [h])).symm
      · rw [if_neg h, List.append_assoc, List.singleton_append]
    · rfl

/-- Opening and closing streams leaves those that have something, in their order. -/
lemma live_refill (limit : Nat) (f : Feed) : live (f.refill limit).streams = live f.streams := by
  have hopened : live (live f.opened) = live f.opened :=
    List.filter_eq_self.2 fun s hs => (List.mem_filter.1 hs).2
  calc live (f.refill limit).streams
      = live (live f.opened ++ (List.range f.closed).reverse.map f.later) :=
        live_openMore limit f.later f.closed (live f.opened)
    _ = live f.streams := by rw [live_append, hopened, ← live_append]; rfl

lemma records_refill (limit : Nat) (f : Feed) : (f.refill limit).records = f.records := by
  rw [records, ← recordsOf_live, live_refill, recordsOf_live, records]

lemma failures_refill (limit : Nat) (f : Feed) : (f.refill limit).failures = f.failures := by
  rw [failures, ← failuresOf_live, live_refill, failuresOf_live, failures]

lemma not_isDone_of_mem_openMore {limit : Nat} {later : Nat → RecordStream} {k : Nat}
    {opened : List RecordStream} (h : ∀ s ∈ opened, ¬ s.isDone) :
    ∀ s ∈ (openMore limit later k opened).1, ¬ s.isDone := by
  induction k generalizing opened with
  | zero => exact h
  | succ k ih =>
    rw [openMore]
    split
    · refine ih fun s hs => ?_
      split at hs
      · exact h s hs
      · rename_i hk
        rcases List.mem_append.1 hs with hs | hs
        · exact h s hs
        · rw [List.mem_singleton.1 hs]
          exact hk
    · exact h

/-- What is open after streams were opened and closed has something. -/
lemma not_isDone_of_mem_refill {limit : Nat} {f : Feed} :
    ∀ s ∈ (f.refill limit).opened, ¬ s.isDone :=
  not_isDone_of_mem_openMore fun s hs => by simpa using (List.mem_filter.1 hs).2

lemma openMore_eq_nil {limit : Nat} (hlimit : 0 < limit) {later : Nat → RecordStream} {k : Nat}
    {opened : List RecordStream} (h : (openMore limit later k opened).1 = []) :
    (openMore limit later k opened).2 = 0 := by
  induction k generalizing opened with
  | zero => rfl
  | succ k ih =>
    rw [openMore] at h ⊢
    by_cases hroom : opened.length < limit
    · rw [if_pos hroom] at h ⊢
      exact ih h
    · rw [if_neg hroom] at h
      -- without room something is open
      obtain rfl : opened = [] := h
      exact absurd hlimit hroom

/-! ## Taking records -/

lemma perm_recordsOf_set {l : List RecordStream} {n : Nat} {s : RecordStream} {r : Record}
    {rest : List Record} (h : l[n]? = some s) (hs : s.records = r :: rest) :
    (recordsOf l).Perm (r :: recordsOf (l.set n { s with records := rest })) := by
  obtain ⟨before, after, hl, hset, -⟩ := exists_split h
  rw [hset, hl, recordsOf_append, recordsOf_append, recordsOf_cons, recordsOf_cons, hs]
  exact List.perm_middle

lemma failuresOf_set {l : List RecordStream} {n : Nat} {s : RecordStream} (h : l[n]? = some s)
    (rest : List Record) : failuresOf (l.set n { s with records := rest }) = failuresOf l := by
  obtain ⟨before, after, hl, hset, -⟩ := exists_split h
  rw [hset, hl, failuresOf_append, failuresOf_append]
  rfl

variable {limit n : Nat} {f rest : Feed} {r : Record} {e : Failure}

/-- What a delivery says about the feed with its streams opened and closed. -/
lemma pull_eq_some {d : Delivery} (h : f.pull limit n = some d) :
    (d = .finished ∧ (f.refill limit).opened = [] ∧ (f.refill limit).closed = 0) ∨
    ∃ s, (f.refill limit).opened[n]? = some s ∧
      ((∃ r tail, s.records = r :: tail ∧ d = .record r { f.refill limit with
          opened := (f.refill limit).opened.set n { s with records := tail } }) ∨
        ∃ e, s.records = [] ∧ s.failure = some e ∧ d = .broken e) := by
  rw [pull] at h
  split at h
  · split at h
    · rename_i hempty
      rw [Bool.and_eq_true, List.isEmpty_iff, beq_iff_eq] at hempty
      exact Or.inl ⟨(Option.some.inj h).symm, hempty⟩
    · cases h
  · rename_i s hs
    refine Or.inr ⟨s, hs, ?_⟩
    split at h
    · rename_i r tail hr
      exact Or.inl ⟨r, tail, hr, (Option.some.inj h).symm⟩
    · rename_i e hr he
      exact Or.inr ⟨e, hr, he, (Option.some.inj h).symm⟩
    · cases h

/-- A record that is handed over is one of those that were left. -/
lemma records_of_pull_eq_record (h : f.pull limit n = some (.record r rest)) :
    f.records.Perm (r :: rest.records) := by
  rw [← records_refill limit f]
  rcases pull_eq_some h with ⟨hd, -⟩ | ⟨s, hs, ⟨r', tail, hr, hd⟩ | ⟨e, -, -, hd⟩⟩
  · cases hd
  · obtain ⟨rfl, rfl⟩ := Delivery.record.inj hd
    rw [records, records, streams, streams, recordsOf_append, recordsOf_append]
    exact (perm_recordsOf_set hs hr).append_right _
  · cases hd

/-- Handing over a record takes no failure away. -/
lemma failures_of_pull_eq_record (h : f.pull limit n = some (.record r rest)) :
    rest.failures = f.failures := by
  rw [← failures_refill limit f]
  rcases pull_eq_some h with ⟨hd, -⟩ | ⟨s, hs, ⟨r', tail, hr, hd⟩ | ⟨e, -, -, hd⟩⟩
  · cases hd
  · obtain ⟨-, rfl⟩ := Delivery.record.inj hd
    rw [failures, failures, streams, streams, failuresOf_append, failuresOf_append]
    exact congrArg (· ++ _) (failuresOf_set hs tail)
  · cases hd

/-- A feed breaks off with a failure of one of its streams. -/
lemma mem_failures_of_pull_eq_broken (h : f.pull limit n = some (.broken e)) :
    e ∈ f.failures := by
  rw [← failures_refill limit f]
  rcases pull_eq_some h with ⟨hd, -⟩ | ⟨s, hs, ⟨r', tail, hr, hd⟩ | ⟨e', -, he, hd⟩⟩
  · cases hd
  · cases hd
  · obtain rfl := Delivery.broken.inj hd
    exact List.mem_filterMap.2
      ⟨s, List.mem_append_left _ (List.mem_of_getElem? hs), he⟩

/-- A feed that is at its end has nothing left. -/
lemma eq_nil_of_pull_eq_finished (h : f.pull limit n = some .finished) :
    f.records = [] ∧ f.failures = [] := by
  rw [← records_refill limit f, ← failures_refill limit f]
  rcases pull_eq_some h with ⟨-, hopened, hclosed⟩ | ⟨s, hs, ⟨r', tail, hr, hd⟩ | ⟨e, -, -, hd⟩⟩
  · rw [records, failures, streams, hopened, hclosed]
    exact ⟨rfl, rfl⟩
  · cases hd
  · cases hd

/-- If a stream may be open at all, the first open stream always has something to deliver. -/
lemma pull_zero_ne_none (hlimit : 0 < limit) : f.pull limit 0 ≠ none := by
  intro h
  rw [pull] at h
  split at h
  · rename_i hnone
    have hopened : (f.refill limit).opened = [] := by
      rw [List.getElem?_eq_none_iff] at hnone
      exact List.eq_nil_of_length_eq_zero (Nat.le_zero.1 hnone)
    -- as long as a stream is closed, one is open, so here the feed is at its end
    have hclosed : (f.refill limit).closed = 0 := openMore_eq_nil hlimit hopened
    rw [hopened, hclosed] at h
    cases h
  · rename_i s hs
    split at h
    · cases h
    · cases h
    · rename_i hr he
      refine not_isDone_of_mem_refill s (List.mem_of_getElem? hs) ?_
      rw [isDone, hr, he]
      rfl

end Bootstrap.Feed

end ShardIndex
