import ShardIndex.Proofs.Allotment

/-!
# The two steps of a call for an id

A call for an id takes the next one, or finds that none is left; then, with an id in its hands, it
looks whether this lies in the last tenth, and warns if no call has warned.  What a counter has
become by any number of such steps is told by the ids that were taken and by those that were looked
at (`Counter.Serves`), and these facts add up (`Counter.Serves.trans`).

Whole calls in a row are given the ids that are left, one after another, and are refused after that
(`Counter.draws_spec`).
-/

namespace ShardIndex.Identity

namespace Counter

/-! ## The two steps of a call -/

/-- The first step of a call: take the next id, unless it lies beyond the limit. -/
def take (c : Counter) : Except Failure PartId × Counter :=
  if c.limit < c.next then (.error (.idsExhausted c.next), c)
  else (.ok c.next, { c with next := c.next + 1 })

/-- The second step of a call: warn if the id that it has taken lies in the last tenth, and nobody
has warned. -/
def notice (c : Counter) (id : PartId) : Counter :=
  if c.threshold ≤ id ∧ c.warned = false then
    { c with warned := true, warnings := c.warnings ++ [⟨id, c.limit⟩] }
  else c

section Steps

variable {c c' c'' : Counter} {id : PartId} {taken taken' noticed noticed' : List PartId}

lemma take_of_le (h : c.next ≤ c.limit) :
    c.take = (.ok c.next, { c with next := c.next + 1 }) :=
  if_neg (Nat.not_lt.2 h)

lemma take_of_lt (h : c.limit < c.next) : c.take = (.error (.idsExhausted c.next), c) := if_pos h

lemma notice_of_warns (h : c.threshold ≤ id ∧ c.warned = false) :
    c.notice id = { c with warned := true, warnings := c.warnings ++ [⟨id, c.limit⟩] } :=
  if_pos h

lemma notice_of_not (h : ¬ (c.threshold ≤ id ∧ c.warned = false)) : c.notice id = c := if_neg h

/-- If an id is left, a whole call takes it and looks at it. -/
lemma allocate_of_le (h : c.next ≤ c.limit) :
    c.allocate = (.ok c.next, { c with next := c.next + 1 }.notice c.next) := by
  rw [allocate, if_neg (Nat.not_lt.2 h)]
  by_cases hwarns : c.threshold ≤ c.next ∧ c.warned = false
  · rw [notice_of_warns (c := { c with next := c.next + 1 }) hwarns]
    exact if_pos hwarns
  · rw [notice_of_not (c := { c with next := c.next + 1 }) hwarns]
    exact if_neg hwarns

/-- The first of some consecutive numbers that reaches a threshold. -/
lemma find?_range'_le (first n threshold : Nat) :
    (List.range' first n).find? (threshold ≤ ·) =
      if max first threshold ∈ List.range' first n then some (max first threshold) else none := by
  simp only [List.mem_range'_1]
  induction n generalizing first with
  | zero =>
    rw [if_neg (by omega)]
    rfl
  | succ n ih =>
    rw [List.range'_succ, List.find?_cons]
    by_cases h : threshold ≤ first
    · rw [decide_eq_true h, if_pos (by omega), Nat.max_eq_left h]
    · have later : max (first + 1) threshold = max first threshold := by omega
      rw [decide_eq_false h, ih, later]
      refine if_congr ?_ rfl rfl
      omega

/-- From one counter to another some ids were taken, and some were looked at. -/
structure Serves (c c' : Counter) (taken noticed : List PartId) : Prop
    extends c.Allots c' taken where
  /-- No id beyond the limit was taken. -/
  bounded : taken = [] ∨ c'.next ≤ c.limit + 1
  /-- Somebody has warned if and only if an id in the last tenth was looked at. -/
  warned : c'.warned = (c.warned || noticed.any (c.threshold ≤ ·))
  /-- Only the first such id made somebody warn. -/
  warnings : c'.warnings = c.warnings ++
    if c.warned then [] else (noticed.find? (c.threshold ≤ ·)).toList.map (⟨·, c.limit⟩)

namespace Serves

lemma refl (c : Counter) : c.Serves c [] [] where
  toAllots := .refl c
  bounded := Or.inl rfl
  warned := (Bool.or_false _).symm
  warnings := by cases c.warned <;> exact (List.append_nil _).symm

lemma threshold_eq (h : c.Serves c' taken noticed) : c'.threshold = c.threshold := by
  rw [threshold, h.limit, threshold]

lemma trans (h : c.Serves c' taken noticed) (h' : c'.Serves c'' taken' noticed') :
    c.Serves c'' (taken ++ taken') (noticed ++ noticed') where
  toAllots := h.toAllots.trans h'.toAllots
  bounded := by
    rcases h'.bounded with rfl | hbound
    · rw [List.append_nil, h'.next, List.length_nil, Nat.add_zero]
      exact h.bounded
    · exact Or.inr (h.limit ▸ hbound)
  warned := by
    rw [h'.warned, h.warned, h.threshold_eq, List.any_append, Bool.or_assoc]
  warnings := by
    rw [h'.warnings, h.warnings, h.warned, h.threshold_eq, h.limit, List.append_assoc,
      List.find?_append]
    cases hwarned : c.warned with
    | true => simp
    | false =>
      cases hfirst : noticed.find? (c.threshold ≤ ·) with
      | none =>
        have unnoticed : noticed.any (c.threshold ≤ ·) = false := by
          rw [List.any_eq_false]
          exact List.find?_eq_none.1 hfirst
        simp [unnoticed]
      | some id =>
        have hnoticed : noticed.any (c.threshold ≤ ·) = true :=
          List.any_eq_true.2 ⟨id, List.mem_of_find?_eq_some hfirst,
            by simpa using List.find?_some hfirst⟩
        simp [hnoticed]

/-- If all ids are looked at in the order in which they are taken, the first one in the last tenth
makes the warning. -/
lemma warnings_of_self (h : c.Serves c' taken taken) (hwarned : c.warned = false)
    (hnone : c.warnings = []) : c'.warnings =
      if max c.next c.threshold ∈ taken then [⟨max c.next c.threshold, c.limit⟩] else [] := by
  rw [h.warnings, hwarned, hnone, h.ids, find?_range'_le]
  by_cases hmem : max c.next c.threshold ∈ List.range' c.next taken.length
  · rw [if_pos hmem, if_pos hmem]
    rfl
  · rw [if_neg hmem, if_neg hmem]
    rfl

end Serves

lemma serves_take (h : c.next ≤ c.limit) :
    c.Serves { c with next := c.next + 1 } [c.next] [] where
  ids := rfl
  next := rfl
  limit := rfl
  bounded := Or.inr (Nat.succ_le_succ h)
  warned := (Bool.or_false _).symm
  warnings := by cases c.warned <;> exact (List.append_nil _).symm

lemma serves_notice (c : Counter) (id : PartId) : c.Serves (c.notice id) [] [id] := by
  by_cases hlate : c.threshold ≤ id
  · cases hwarned : c.warned with
    | true =>
      rw [notice_of_not fun h => by cases hwarned.symm.trans h.2]
      exact ⟨.refl c, Or.inl rfl, by simp [hwarned], by simp [hwarned]⟩
    | false =>
      rw [notice_of_warns ⟨hlate, hwarned⟩]
      exact ⟨⟨rfl, rfl, rfl⟩, Or.inl rfl, by simp [hlate], by simp [hwarned, hlate]⟩
  · rw [notice_of_not fun h => hlate h.1]
    exact ⟨.refl c, Or.inl rfl, by simp [hlate], by simp [hlate]⟩

end Steps

/-! ## Whole calls in a row -/

/-- Some whole calls in a row: their answers, and the counter after them. -/
def draws : Nat → Counter → List (Except Failure PartId) × Counter
  | 0, c => ([], c)
  | n + 1, c => (c.allocate.1 :: (draws n c.allocate.2).1, (draws n c.allocate.2).2)

/-- Calls in a row are given the ids that are left, and then refused. -/
theorem draws_spec (n : Nat) (c : Counter) :
    let m := min n (c.limit + 1 - c.next)
    (c.draws n).1 = (List.range' c.next m).map .ok ++
      List.replicate (n - m) (.error (.idsExhausted (max c.next (c.limit + 1)))) ∧
    c.Serves (c.draws n).2 (List.range' c.next m) (List.range' c.next m) := by
  induction n generalizing c with
  | zero =>
    intro m
    have nothing : m = 0 := Nat.zero_min _
    rw [nothing]
    exact ⟨rfl, .refl c⟩
  | succ n ih =>
    intro m
    rcases Nat.lt_or_ge c.limit c.next with hlimit | hlimit
    · -- none is left, so the call changes nothing, and the others find the same
      have nothing : m = 0 := by omega
      have nothing' : min n (c.limit + 1 - c.next) = 0 := by omega
      have largest : max c.next (c.limit + 1) = c.next := by omega
      obtain ⟨answers, serves⟩ := ih c
      rw [nothing', largest] at answers
      rw [nothing'] at serves
      rw [draws, allocate_of_lt hlimit, nothing, answers, largest]
      exact ⟨rfl, serves⟩
    · obtain ⟨answers, serves⟩ := ih c.allocate.2
      have given := allocate_of_le hlimit
      have first : c.Serves c.allocate.2 [c.next] [c.next] := by
        rw [given]
        exact (serves_take hlimit).trans (serves_notice _ _)
      have hm : m = min n (c.limit - c.next) + 1 := by omega
      have hnext : c.allocate.2.next = c.next + 1 := first.next
      have largest : max (c.next + 1) (c.limit + 1) = max c.next (c.limit + 1) := by omega
      rw [hnext, first.limit, largest, Nat.add_sub_add_right] at answers
      rw [hnext, first.limit, Nat.add_sub_add_right] at serves
      rw [hm, List.range'_succ, Nat.add_sub_add_right, List.map_cons, List.cons_append, ← answers]
      exact ⟨congrArg (· :: _) (congrArg Prod.fst given), first.trans serves⟩

end Counter

end ShardIndex.Identity
