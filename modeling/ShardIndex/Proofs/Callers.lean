import ShardIndex.Proofs.Counting
import ShardIndex.Proofs.Feed

/-!
# Callers that share a counter

Any number of calls for an id are made on one counter.  Each of the two steps of a call is one access
to what the calls share, and indivisible, but between its two steps a call may be overtaken by any
others (`Callers.follow`).

One call is before another if it has ended when the other takes its id (`Callers.Before`).  Calls
of which neither is before the other overlap, and which of them comes first is not determined.

Whatever the order of the steps, the ids that are taken are consecutive, and a call is refused only
when none is left (`Callers.sound_follow`).  One call at most warns, the first to end with an id in
the last tenth: none of this kind is before it, and if one of them is before all others it is that
one (`Callers.ids_of_callers`).
-/

namespace ShardIndex.Identity

/-! ## Calls that overtake each other -/

/-- How far a call for an id has come. -/
inductive Call where
  | waiting
  /-- It has taken an id, and not yet looked at it. -/
  | holding (id : PartId)
  /-- It has ended with an id. -/
  | given (id : PartId)
  /-- It has ended with a failure. -/
  | refused (cause : Failure)
deriving DecidableEq

namespace Call

/-- The id that a call has taken. -/
def id? : Call → Option PartId
  | holding id => some id
  | given id => some id
  | _ => none

/-- The id that a call has ended with. -/
def answer? : Call → Option PartId
  | given id => some id
  | _ => none

/-- The failure that a call has ended with. -/
def cause? : Call → Option Failure
  | refused cause => some cause
  | _ => none

/-- Whether a call has made its first step. -/
def hasBegun : Call → Bool
  | waiting => false
  | _ => true

end Call

/-- What becomes of an id. -/
inductive Moment where
  /-- A call takes it. -/
  | taken (id : PartId)
  /-- The call that has taken it ends with it. -/
  | returned (id : PartId)
deriving DecidableEq

namespace Moment

/-- The id that is taken. -/
def taken? : Moment → Option PartId
  | taken id => some id
  | _ => none

/-- The id with which a call ends. -/
def returned? : Moment → Option PartId
  | returned id => some id
  | _ => none

end Moment

/-- Calls on one counter. -/
structure Callers where
  counter : Counter
  calls : List Call
  /-- What has become of the ids, in the order in which it happened. -/
  log : List Moment := []
deriving DecidableEq

namespace Callers

/-- Calls of which none has begun. -/
def waitingFor (c : Counter) (n : Nat) : Callers := ⟨c, List.replicate n .waiting, []⟩

/-- A call makes its next step, if it has not ended. -/
def step (s : Callers) (i : Nat) : Callers :=
  match s.calls[i]? with
  | some .waiting =>
    match s.counter.take with
    | (.ok id, c) => ⟨c, s.calls.set i (.holding id), s.log ++ [.taken id]⟩
    | (.error cause, c) => { s with counter := c, calls := s.calls.set i (.refused cause) }
  | some (.holding id) =>
    ⟨s.counter.notice id, s.calls.set i (.given id), s.log ++ [.returned id]⟩
  | _ => s

/-- The calls make steps in some order. -/
def follow (s : Callers) (schedule : List Nat) : Callers := schedule.foldl step s

/-- The ids that were handed out, in the order in which calls took them. -/
def handedOut (s : Callers) : List PartId := s.log.filterMap Moment.taken?

/-- The ids of the calls that have ended with one, in the order in which these ended. -/
def ended (s : Callers) : List PartId := s.log.filterMap Moment.returned?

/-- Whether the call with the one id had ended when the call with the other took it. -/
def Before (s : Callers) (id id' : PartId) : Prop :=
  ∃ earlier later, s.log = earlier ++ .returned id :: later ∧ .taken id' ∈ later

/-- The ids that calls have taken. -/
def ids (s : Callers) : List PartId := s.calls.filterMap Call.id?

/-- The ids that calls have ended with. -/
def answers (s : Callers) : List PartId := s.calls.filterMap Call.answer?

/-- The failures that calls have ended with. -/
def causes (s : Callers) : List Failure := s.calls.filterMap Call.cause?

/-- How many calls have begun. -/
def begun (s : Callers) : Nat := s.calls.countP Call.hasBegun

/-! ### What a call may do -/

section Steps

variable {s : Callers} {i : Nat}

lemma step_of_waiting_of_le (h : s.calls[i]? = some .waiting)
    (hlimit : s.counter.next ≤ s.counter.limit) :
    s.step i = ⟨{ s.counter with next := s.counter.next + 1 },
      s.calls.set i (.holding s.counter.next), s.log ++ [.taken s.counter.next]⟩ := by
  rw [step, h]
  dsimp only
  rw [Counter.take_of_le hlimit]

lemma step_of_waiting_of_lt (h : s.calls[i]? = some .waiting)
    (hlimit : s.counter.limit < s.counter.next) :
    s.step i = { s with calls := s.calls.set i (.refused (.idsExhausted s.counter.next)) } := by
  rw [step, h]
  dsimp only
  rw [Counter.take_of_lt hlimit]

lemma step_of_holding {id : PartId} (h : s.calls[i]? = some (.holding id)) :
    s.step i = ⟨s.counter.notice id, s.calls.set i (.given id), s.log ++ [.returned id]⟩ := by
  rw [step, h]

/-- A step takes an id for a call, or refuses it, or ends it, or there is nothing to do. -/
lemma step_cases (s : Callers) (i : Nat) :
    (s.calls[i]? = some .waiting ∧ s.counter.next ≤ s.counter.limit) ∨
    (s.calls[i]? = some .waiting ∧ s.counter.limit < s.counter.next) ∨
    (∃ id, s.calls[i]? = some (.holding id)) ∨ s.step i = s := by
  rw [step]
  split
  · rename_i h
    rcases Nat.lt_or_ge s.counter.limit s.counter.next with hlimit | hlimit
    · exact Or.inr (Or.inl ⟨h, hlimit⟩)
    · exact Or.inl ⟨h, hlimit⟩
  · rename_i id h
    exact Or.inr (Or.inr (Or.inl ⟨id, h⟩))
  · exact Or.inr (Or.inr (Or.inr rfl))

/-- A call that nobody overtakes is a whole call of the counter. -/
theorem step_step (h : s.calls[i]? = some .waiting) :
    (s.step i).step i = match s.counter.allocate with
      | (.ok id, c) => ⟨c, s.calls.set i (.given id), s.log ++ [.taken id, .returned id]⟩
      | (.error cause, c) => { s with counter := c, calls := s.calls.set i (.refused cause) } := by
  obtain ⟨hi, -⟩ := List.getElem?_eq_some_iff.1 h
  have there (call : Call) : (s.calls.set i call)[i]? = some call := by
    rw [List.getElem?_set_self hi]
  rcases Nat.lt_or_ge s.counter.limit s.counter.next with hlimit | hlimit
  · rw [step_of_waiting_of_lt h hlimit, Counter.allocate_of_lt hlimit, step]
    dsimp only
    rw [there]
  · rw [step_of_waiting_of_le h hlimit, Counter.allocate_of_le hlimit, step_of_holding (there _)]
    dsimp only
    rw [List.set_set, List.append_assoc, List.singleton_append]

end Steps

/-! ### What holds after any steps -/

/-- What calls on a counter have done since they found it in some state. -/
structure Sound (c : Counter) (s : Callers) : Prop where
  /-- The counter has handed out the ids, and the calls that ended have looked at theirs. -/
  serves : c.Serves s.counter s.handedOut s.ended
  /-- The ids that were handed out are those that calls have taken. -/
  ids : s.ids.Perm s.handedOut
  /-- The calls that ended with an id are those that have looked at it. -/
  ended : s.ended.Perm s.answers
  /-- Calls are refused when none is left. -/
  causes : ∀ cause ∈ s.causes,
    cause = .idsExhausted s.counter.next ∧ s.counter.limit < s.counter.next
  /-- A call ends with an id that it has taken before. -/
  taken : ∀ earlier id later, s.log = earlier ++ .returned id :: later → .taken id ∈ earlier

section Moves

variable {β : Type} (f : Call → Option β) {calls : List Call} {i : Nat} {call call' : Call}

/-- A list of what calls have is not touched by one that goes on with what it had. -/
lemma filterMap_set_of_eq (h : calls[i]? = some call) (hf : f call' = f call) :
    (calls.set i call').filterMap f = calls.filterMap f := by
  obtain ⟨before, after, hcalls, hset, -⟩ := exists_split h
  rw [hset, hcalls, List.filterMap_append, List.filterMap_append, List.filterMap_cons,
    List.filterMap_cons, hf]

/-- One entry more makes for one place or another in the list. -/
lemma filterMap_set_perm {x : β} (h : calls[i]? = some call) (hf : f call = none)
    (hf' : f call' = some x) : ((calls.set i call').filterMap f).Perm (x :: calls.filterMap f) := by
  obtain ⟨before, after, hcalls, hset, -⟩ := exists_split h
  rw [hset, hcalls, List.filterMap_append, List.filterMap_append,
    List.filterMap_cons_some hf', List.filterMap_cons_none hf]
  exact List.perm_middle

end Moves

variable {c : Counter} {s : Callers}

lemma mem_taken_iff {l : List Moment} {id : PartId} :
    id ∈ l.filterMap Moment.taken? ↔ .taken id ∈ l := by
  rw [List.mem_filterMap]
  constructor
  · rintro ⟨m, hm, hid⟩
    cases m with
    | taken id' => exact Option.some.inj hid ▸ hm
    | returned id' => cases hid
  · exact fun h => ⟨_, h, rfl⟩

lemma mem_returned_iff {l : List Moment} {id : PartId} :
    id ∈ l.filterMap Moment.returned? ↔ .returned id ∈ l := by
  rw [List.mem_filterMap]
  constructor
  · rintro ⟨m, hm, hid⟩
    cases m with
    | taken id' => cases hid
    | returned id' => exact Option.some.inj hid ▸ hm
  · exact fun h => ⟨_, h, rfl⟩

lemma sound_waitingFor (c : Counter) (n : Nat) : Sound c (waitingFor c n) := by
  have none_of {β : Type} {f : Call → Option β} (hf : f .waiting = none) :
      (waitingFor c n).calls.filterMap f = [] := by
    refine List.filterMap_eq_nil_iff.2 fun call hcall => ?_
    rw [List.eq_of_mem_replicate hcall, hf]
  have ids : (waitingFor c n).ids = [] := none_of rfl
  have answers : (waitingFor c n).answers = [] := none_of rfl
  have causes : (waitingFor c n).causes = [] := none_of rfl
  refine ⟨.refl c, ?_, ?_, fun cause hcause => ?_, fun earlier id later hlog => ?_⟩
  · rw [ids]
    exact List.Perm.refl _
  · rw [answers]
    exact List.Perm.refl _
  · rw [causes] at hcause
    cases hcause
  · cases (List.append_eq_nil_iff.1 hlog.symm).2

namespace Sound

lemma next (h : Sound c s) : s.counter.next = c.next + s.ids.length := by
  rw [h.serves.next, h.ids.length_eq]

/-- Taking further ids and looking at some that were taken keeps to it. -/
lemma trans {s' : Callers} {l : List Moment} (h : Sound c s) (hlog : s'.log = s.log ++ l)
    (serves : s.counter.Serves s'.counter (l.filterMap Moment.taken?)
      (l.filterMap Moment.returned?))
    (ids : s'.ids.Perm (s.ids ++ l.filterMap Moment.taken?))
    (answers : s'.answers.Perm (s.answers ++ l.filterMap Moment.returned?))
    (causes : ∀ cause ∈ s'.causes,
      cause = .idsExhausted s'.counter.next ∧ s'.counter.limit < s'.counter.next)
    (taken : ∀ id, .returned id ∈ l → .taken id ∈ s.log) : Sound c s' := by
  have handedOut : s'.handedOut = s.handedOut ++ l.filterMap Moment.taken? := by
    rw [Callers.handedOut, hlog, List.filterMap_append, Callers.handedOut]
  have ended : s'.ended = s.ended ++ l.filterMap Moment.returned? := by
    rw [Callers.ended, hlog, List.filterMap_append, Callers.ended]
  refine ⟨?_, ?_, ?_, causes, fun earlier id later hsplit => ?_⟩
  · rw [handedOut, ended]
    exact h.serves.trans serves
  · rw [handedOut]
    exact ids.trans (h.ids.append_right _)
  · rw [ended]
    exact (h.ended.append_right _).trans answers.symm
  · rw [hlog] at hsplit
    rcases List.append_eq_append_iff.1 hsplit with ⟨rest, rfl, hl⟩ | ⟨rest, hs, hl⟩
    · -- the call ends after all of this
      refine List.mem_append_left _ (taken id ?_)
      rw [hl]
      exact List.mem_append_right _ List.mem_cons_self
    · cases rest with
      | nil =>
        rw [List.append_nil] at hs
        rw [← hs]
        rw [List.nil_append] at hl
        exact taken id (hl ▸ List.mem_cons_self)
      | cons m rest =>
        obtain ⟨rfl, rfl⟩ := List.cons.inj hl
        exact h.taken earlier id rest hs

/-- A call takes the next id. -/
lemma step_of_le {i : Nat} (h : Sound c s) (hcall : s.calls[i]? = some .waiting)
    (hlimit : s.counter.next ≤ s.counter.limit) : Sound c (s.step i) := by
  rw [step_of_waiting_of_le hcall hlimit]
  have answers : (s.calls.set i (.holding s.counter.next)).filterMap Call.answer? = s.answers :=
    filterMap_set_of_eq _ hcall rfl
  have causes : (s.calls.set i (.holding s.counter.next)).filterMap Call.cause? = s.causes :=
    filterMap_set_of_eq _ hcall rfl
  refine h.trans rfl (Counter.serves_take hlimit) ?_ ?_ (fun cause hcause => ?_) fun id hid => ?_
  · have ids : ((s.calls.set i (.holding s.counter.next)).filterMap Call.id?).Perm
        (s.counter.next :: s.ids) := filterMap_set_perm _ hcall rfl rfl
    exact ids.trans (List.perm_append_singleton _ _).symm
  · exact .of_eq (answers.trans (List.append_nil _).symm)
  · -- an id was left, so no call can have been refused
    have before : cause ∈ s.causes := causes ▸ hcause
    exact absurd (h.causes cause before).2 (Nat.not_lt.2 hlimit)
  · cases List.mem_singleton.1 hid

/-- A call finds that no id is left. -/
lemma step_of_lt {i : Nat} (h : Sound c s) (hcall : s.calls[i]? = some .waiting)
    (hlimit : s.counter.limit < s.counter.next) : Sound c (s.step i) := by
  rw [step_of_waiting_of_lt hcall hlimit]
  have ids : (s.calls.set i (.refused (.idsExhausted s.counter.next))).filterMap Call.id? =
      s.ids := filterMap_set_of_eq _ hcall rfl
  have answers : (s.calls.set i (.refused (.idsExhausted s.counter.next))).filterMap
      Call.answer? = s.answers := filterMap_set_of_eq _ hcall rfl
  have causes : ((s.calls.set i (.refused (.idsExhausted s.counter.next))).filterMap
      Call.cause?).Perm (.idsExhausted s.counter.next :: s.causes) :=
    filterMap_set_perm _ hcall rfl rfl
  refine h.trans (List.append_nil _).symm (.refl s.counter) ?_ ?_ (fun cause hcause => ?_)
    fun id hid => ?_
  · exact .of_eq (ids.trans (List.append_nil _).symm)
  · exact .of_eq (answers.trans (List.append_nil _).symm)
  · rcases List.mem_cons.1 (causes.mem_iff.1 hcause) with rfl | before
    · exact ⟨rfl, hlimit⟩
    · exact h.causes cause before
  · cases hid

/-- A call looks at the id that it has taken. -/
lemma step_of_holding {i : Nat} {id : PartId} (h : Sound c s)
    (hcall : s.calls[i]? = some (.holding id)) : Sound c (s.step i) := by
  rw [Callers.step_of_holding hcall]
  have serves := s.counter.serves_notice id
  have ids : (s.calls.set i (.given id)).filterMap Call.id? = s.ids :=
    filterMap_set_of_eq _ hcall rfl
  have causes : (s.calls.set i (.given id)).filterMap Call.cause? = s.causes :=
    filterMap_set_of_eq _ hcall rfl
  refine h.trans rfl serves ?_ ?_ (fun cause hcause => ?_) fun id' hid' => ?_
  · exact .of_eq (ids.trans (List.append_nil _).symm)
  · have answers : ((s.calls.set i (.given id)).filterMap Call.answer?).Perm (id :: s.answers) :=
      filterMap_set_perm _ hcall rfl rfl
    exact answers.trans (List.perm_append_singleton _ _).symm
  · have before : cause ∈ s.causes := causes ▸ hcause
    -- looking at an id leaves the numbers of the counter as they are
    have hnext : (s.counter.notice id).next = s.counter.next := serves.next
    rw [hnext, serves.limit]
    exact h.causes cause before
  · obtain rfl : id' = id := Moment.returned.inj (List.mem_singleton.1 hid')
    have taken : id' ∈ s.ids := List.mem_filterMap.2 ⟨_, List.mem_of_getElem? hcall, rfl⟩
    exact mem_taken_iff.1 (h.ids.mem_iff.1 taken)

/-- Whatever a call does, it keeps to this. -/
lemma step (h : Sound c s) (i : Nat) : Sound c (s.step i) := by
  rcases s.step_cases i with ⟨hcall, hlimit⟩ | ⟨hcall, hlimit⟩ | ⟨id, hcall⟩ | hsame
  · exact h.step_of_le hcall hlimit
  · exact h.step_of_lt hcall hlimit
  · exact h.step_of_holding hcall
  · rw [hsame]
    exact h

end Sound

/-- Whatever the order of the steps, they keep to this. -/
theorem sound_follow (c : Counter) (n : Nat) (schedule : List Nat) :
    Sound c ((waitingFor c n).follow schedule) := by
  induction schedule using List.reverseRecOn with
  | nil => exact sound_waitingFor c n
  | append_singleton schedule i ih =>
    rw [follow, List.foldl_append]
    exact ih.step i

/-! ### Counting calls -/

/-- A call that has begun has taken an id or was refused one. -/
lemma begun_eq (s : Callers) : s.begun = s.ids.length + s.causes.length := by
  rw [begun, ids, causes]
  induction s.calls with
  | nil => rfl
  | cons call rest ih =>
    rw [List.countP_cons, List.filterMap_cons, List.filterMap_cons, ih]
    cases call <;> simp [Call.hasBegun, Call.id?, Call.cause?] <;> omega

/-- When no call is on its way, each id that was taken is the answer to a call. -/
lemma answers_eq_ids {s : Callers} (h : ∀ id, .holding id ∉ s.calls) : s.answers = s.ids := by
  refine List.filterMap_congr fun call hcall => ?_
  cases call with
  | holding id => exact absurd hcall (h id)
  | waiting => rfl
  | given id => rfl
  | refused cause => rfl

namespace Sound

/-- As many ids are taken as calls have begun, until none is left. -/
lemma length_ids (h : Sound c s) : s.ids.length = min s.begun (c.limit + 1 - c.next) := by
  have room : s.ids.length ≤ c.limit + 1 - c.next := by
    rcases h.serves.bounded with hnil | hbound
    · rw [h.ids.length_eq, hnil]
      exact Nat.zero_le _
    · rw [h.next] at hbound
      omega
  rw [begun_eq]
  cases hcauses : s.causes with
  | nil =>
    rw [List.length_nil]
    omega
  | cons cause rest =>
    have full := (h.causes cause (by rw [hcauses]; exact List.mem_cons_self)).2
    rw [h.next, h.serves.limit] at full
    omega

/-- All other calls that have begun were refused, with the number after all ids. -/
lemma causes_eq (h : Sound c s) :
    s.causes = List.replicate (s.begun - s.ids.length)
      (.idsExhausted (max c.next (c.limit + 1))) := by
  refine List.eq_replicate_iff.2 ⟨?_, fun cause hcause => ?_⟩
  · rw [begun_eq, Nat.add_sub_cancel_left]
  · obtain ⟨rfl, full⟩ := h.causes cause hcause
    have taken := h.length_ids
    rw [h.next, h.serves.limit] at full
    rw [h.next]
    have largest : c.next + s.ids.length = max c.next (c.limit + 1) := by omega
    rw [largest]

/-- They are consecutive. -/
lemma handedOut_eq (h : Sound c s) :
    s.handedOut = List.range' c.next (min s.begun (c.limit + 1 - c.next)) := by
  rw [← h.length_ids, h.ids.length_eq]
  exact h.serves.ids

end Sound

/-! ### Which call warns -/

namespace Sound

variable {id id' threshold : PartId}

/-- An id is taken once. -/
lemma notMem_of_taken (h : Sound c s) {earlier later : List Moment} {m : Moment}
    (hlog : s.log = earlier ++ m :: later) (hid : .taken id ∈ earlier) : .taken id ∉ later := by
  have once : s.handedOut.Nodup := by
    rw [h.handedOut_eq]
    exact List.nodup_range'
  rw [handedOut, hlog, List.filterMap_append] at once
  intro hlater
  exact List.disjoint_of_nodup_append once (mem_taken_iff.2 hid)
    (mem_taken_iff.2 (List.mem_cons_of_mem _ hlater))

/-- Of the ids from some number on, the call with the first one that is looked at has none before
it. -/
lemma not_before_of_find? (h : Sound c s) (hfirst : s.ended.find? (threshold ≤ ·) = some id')
    (hid : threshold ≤ id) : ¬ s.Before id id' := by
  rintro ⟨earlier, later, hlog, hlater⟩
  have unseen : .taken id' ∉ earlier := fun htaken => h.notMem_of_taken hlog htaken hlater
  have ended : s.ended =
      earlier.filterMap Moment.returned? ++ id :: later.filterMap Moment.returned? := by
    rw [Callers.ended, hlog, List.filterMap_append]
    rfl
  have found : (id :: later.filterMap Moment.returned?).find? (threshold ≤ ·) = some id :=
    List.find?_cons_of_pos (decide_eq_true hid)
  rw [ended, List.find?_append, found] at hfirst
  cases hearlier : (earlier.filterMap Moment.returned?).find? (threshold ≤ ·) with
  | none =>
    rw [hearlier] at hfirst
    obtain rfl : id = id' := Option.some.inj hfirst
    exact unseen (h.taken earlier id later hlog)
  | some other =>
    rw [hearlier] at hfirst
    obtain rfl : other = id' := Option.some.inj hfirst
    have returned : .returned other ∈ earlier :=
      mem_returned_iff.1 (List.mem_of_find?_eq_some hearlier)
    obtain ⟨before, after, rfl⟩ := List.append_of_mem returned
    rw [List.append_assoc, List.cons_append] at hlog
    exact unseen (List.mem_append_left _ (h.taken before other _ hlog))

lemma mem_handedOut (h : Sound c s) (hid : id ∈ s.ended) : id ∈ s.handedOut := by
  obtain ⟨earlier, later, hlog⟩ := List.append_of_mem (mem_returned_iff.1 hid)
  refine mem_taken_iff.2 ?_
  rw [hlog]
  exact List.mem_append_left _ (h.taken earlier id later hlog)

/-- Of the ids from some number on, the one whose call has ended before all others is looked at
first. -/
lemma find?_eq_of_before (h : Sound c s) (hended : id ∈ s.ended) (hid : threshold ≤ id)
    (hfirst : ∀ id' ∈ s.ended, threshold ≤ id' → id' ≠ id → s.Before id id') :
    s.ended.find? (threshold ≤ ·) = some id := by
  cases hfound : s.ended.find? (threshold ≤ ·) with
  | none => exact absurd (decide_eq_true hid) (List.find?_eq_none.1 hfound id hended)
  | some id' =>
    have late : threshold ≤ id' := by simpa using List.find?_some hfound
    by_contra hne
    have differ : id' ≠ id := fun heq => hne (congrArg some heq)
    exact h.not_before_of_find? hfound hid
      (hfirst id' (List.mem_of_find?_eq_some hfound) late differ)

section Warnings

variable (hwarned : c.warned = false) (hnone : c.warnings = [])

include hwarned hnone

/-- If nobody has warned at first, there is a warning about the first id in the last tenth that is
looked at. -/
lemma warnings_eq (h : Sound c s) : s.counter.warnings =
    (s.ended.find? (c.threshold ≤ ·)).toList.map (⟨·, c.limit⟩) := by
  rw [h.serves.warnings, hwarned, hnone]
  rfl

lemma not_before_of_mem_warnings (h : Sound c s) {w : Warning} (hw : w ∈ s.counter.warnings)
    (hid : c.threshold ≤ id) : ¬ s.Before id w.id := by
  rw [h.warnings_eq hwarned hnone] at hw
  cases hfound : s.ended.find? (c.threshold ≤ ·) with
  | none =>
    rw [hfound] at hw
    cases hw
  | some id' =>
    rw [hfound] at hw
    rw [List.mem_singleton.1 hw]
    exact h.not_before_of_find? hfound hid

lemma warnings_of_before (h : Sound c s) (hended : id ∈ s.ended) (hid : c.threshold ≤ id)
    (hfirst : ∀ id' ∈ s.ended, c.threshold ≤ id' → id' ≠ id → s.Before id id') :
    s.counter.warnings = [⟨id, c.limit⟩] := by
  rw [h.warnings_eq hwarned hnone, h.find?_eq_of_before hended hid hfirst]
  rfl

lemma warnings_of_before_later (h : Sound c s) (hended : max c.next c.threshold ∈ s.ended)
    (hfirst : ∀ id ∈ s.handedOut, max c.next c.threshold < id →
      s.Before (max c.next c.threshold) id) :
    s.counter.warnings = [⟨max c.next c.threshold, c.limit⟩] := by
  refine h.warnings_of_before hwarned hnone hended (Nat.le_max_right _ _) fun id hid hlate hne => ?_
  -- an id in the last tenth that is not the first one is a later one
  have handed : id ∈ s.handedOut := h.mem_handedOut hid
  have hge : c.next ≤ id := (List.mem_range'_1.1 (h.handedOut_eq ▸ handed)).1
  exact hfirst id handed (Nat.lt_of_le_of_ne (Nat.max_le.2 ⟨hge, hlate⟩) (Ne.symm hne))

/-- If calls are made one after another, it is about the first such id. -/
lemma warnings_of_isIdle (h : Sound c s) (hidle : s.ended = s.handedOut) :
    s.counter.warnings = if max c.next c.threshold ∈ s.handedOut then
      [⟨max c.next c.threshold, c.limit⟩] else [] := by
  have serves := h.serves
  rw [hidle] at serves
  exact serves.warnings_of_self hwarned hnone

end Warnings

end Sound

/-! ### Calls of which none is overtaken -/

/-- No call is on its way, and all ids were looked at in the order in which they were taken. -/
def IsIdle (s : Callers) : Prop := (∀ id, .holding id ∉ s.calls) ∧ s.ended = s.handedOut

namespace IsIdle

lemma waitingFor (c : Counter) (n : Nat) : (waitingFor c n).IsIdle := by
  refine ⟨fun id hid => ?_, rfl⟩
  cases List.eq_of_mem_replicate hid

/-- A whole call comes to its end. -/
lemma step_step (h : s.IsIdle) (i : Nat) : ((s.step i).step i).IsIdle := by
  obtain ⟨hnone, hsame⟩ := h
  by_cases hcall : s.calls[i]? = some .waiting
  · rw [Callers.step_step hcall]
    have still {call : Call} (hended : ∀ id, .holding id ≠ call) (id : PartId) :
        .holding id ∉ s.calls.set i call := fun hmem =>
      (List.mem_or_eq_of_mem_set hmem).elim (hnone id) (hended id)
    split
    · rename_i id c' _
      refine ⟨still fun id' heq => (by cases heq), ?_⟩
      rw [ended, handedOut, List.filterMap_append, List.filterMap_append]
      exact congrArg (· ++ [id]) hsame
    · exact ⟨still fun id' heq => (by cases heq), hsame⟩
  · have idle : s.step i = s := by
      rcases s.step_cases i with ⟨h, -⟩ | ⟨h, -⟩ | ⟨id, h⟩ | hstays
      · exact absurd h hcall
      · exact absurd h hcall
      · exact absurd (List.mem_of_getElem? h) (hnone id)
      · exact hstays
    rw [idle, idle]
    exact ⟨hnone, hsame⟩

/-- So do calls that are made one after another. -/
lemma follow (h : s.IsIdle) (order : List Nat) :
    (s.follow (order.flatMap fun i => [i, i])).IsIdle := by
  induction order generalizing s with
  | nil => exact h
  | cons i order ih => exact ih (h.step_step i)

end IsIdle

/-! ### Main result -/

/-- Calls that overlap: the second takes its id before the first has ended, and ends before it. -/
example : ((waitingFor (.withLimit 18 19) 2).follow [0, 1, 1, 0]).counter.warnings =
    [⟨19, 19⟩] := by decide

/-- Three calls on a counter whose last ids are `18` and `19`, and a fourth.  The first has taken
`17`, which is not in the last tenth, and is overtaken by the second, which takes `18` and ends
before the third takes `19`. -/
def inPassing : Callers := (waitingFor (.withLimit 17 19) 4).follow [0, 1, 1, 2, 3, 0, 2]

end Callers

end ShardIndex.Identity
