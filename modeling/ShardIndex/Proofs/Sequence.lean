import ShardIndex.Proofs.Assignment
import ShardIndex.Proofs.Contents
import ShardIndex.Proofs.Single

/-!
# Records written one at a time

With one record in flight a call leaves nothing to a schedule (`Plan.write_of_isSequential`), so
the resolver is asked about the records in their order and the rows are written in the order in
which they were granted (`Course.inOrder`).

Of a resolver in a given state the records that it is asked about fix all answers
(`Evolves.answered_eq`).  So what such a call writes, if it ends well, is fixed by the resolver and
the records (`Course.written_eq_of_inOrder`).
-/

namespace ShardIndex

namespace Bootstrap

open Identity RecordStream

/-! ## Calls with one record in flight -/

section Calls

variable {ρ ι : Type} [Resolver ρ] [Index ι]

/-- A record that is resolved and written was asked about, and its row was written if it was
granted. -/
lemma Story.views_of_finished {mode : WriteMode} {r : Record} {o : Option Failure}
    {l : List Action} (h : Story mode r (.finished o) l) :
    consulted l = [r] ∧ (written l).Sublist (granted l) := by
  refine ⟨?_, h.written_sublist⟩
  cases h <;> rfl

/-- Records that are written one after another are asked about and written in their order. -/
lemma World.exists_inOrder_writeInOrder (mode : WriteMode) (failure : Option Failure)
    (records : List Record) (count : Nat) (w : World ρ ι) :
    ∃ j, w.Evolves j (w.writeInOrder mode failure records count).2 ∧ consulted j <+: records ∧
      (written j).Sublist (granted j) := by
  induction records generalizing count w with
  | nil =>
    refine ⟨[], ?_, List.prefix_refl _, List.Sublist.refl _⟩
    cases failure <;> exact .refl
  | cons r rest ih =>
    obtain ⟨l, hl, story⟩ := exists_story_writeRecord mode r w
    obtain ⟨hasked, hwritten⟩ := story.views_of_finished
    rcases hw : w.writeRecord mode r with ⟨_ | e, w₁⟩
    · rw [hw] at hl
      obtain ⟨j, evolves, hconsulted, hsublist⟩ := ih (count + 1) w₁
      simp only [writeInOrder, hw]
      refine ⟨l ++ j, hl.trans evolves, ?_, ?_⟩
      · rw [consulted_append, hasked]
        exact (List.prefix_append_right_inj [r]).2 hconsulted
      · rw [written_append, granted_append]
        exact hwritten.append hsublist
    · rw [hw] at hl
      simp only [writeInOrder, hw]
      refine ⟨l, hl, ?_, hwritten⟩
      rw [hasked]
      exact List.prefix_append [r] rest

/-- Whether a writing has one record in flight at most. -/
def Writing.IsSequential : Writing → Prop
  | .inOrder _ => True
  | .byCrew limit feed => limit = 1 ∧ feed.opened.length ≤ 1

/-- Whether a strategy has one record in flight at most. -/
def Strategy.IsSequential (settings : Settings) : Strategy → Prop
  | .raw => True
  | .downsample _ _ parallelism => settings.limit parallelism = 1
  | .refresh _ _ parallelism => settings.limit parallelism = 1

lemma Strategy.IsSequential.writing {σ : Type} [ColumnStore σ] {strategy : Strategy}
    {settings : Settings} {schemas : Schema.Registry} {store : σ} {shard : Shard} {p : Plan}
    (h : strategy.IsSequential settings)
    (hp : strategy.plan settings schemas store shard = .ok p) : p.writing.IsSequential := by
  cases strategy with
  | raw =>
    rw [← Except.ok.inj hp]
    trivial
  | downsample checkpoint retention parallelism =>
    rw [← Except.ok.inj hp]
    exact ⟨h, Nat.le_refl 1⟩
  | refresh first last parallelism =>
    simp only [plan] at hp
    cases hspan : HourSpan.ofBounds first last with
    | error e =>
      rw [hspan] at hp
      cases hp
    | ok span =>
      rw [hspan] at hp
      rw [← Except.ok.inj hp]
      exact ⟨h, Nat.zero_le 1⟩

/-- What a writing delivers if it has one record in flight at most. -/
def Writing.inTurn : Writing → RecordStream
  | .inOrder s => s
  | .byCrew _ feed => feed.inTurn

lemma Writing.records_inTurn_prefix (writing : Writing) :
    writing.inTurn.records <+: recordsOf writing.streams := by
  cases writing with
  | inOrder s =>
    rw [Writing.streams, recordsOf_cons]
    exact List.prefix_append _ _
  | byCrew limit feed => exact RecordStream.records_inTurn_prefix feed.streams

/-- With one record in flight at most, a plan writes its records one after another. -/
lemma Plan.write_of_isSequential {p : Plan} (h : p.writing.IsSequential) (schedule : List Choice)
    (w : World ρ ι) :
    p.write schedule w =
      w.writeInOrder p.mode p.writing.inTurn.failure p.writing.inTurn.records 0 := by
  obtain ⟨opening, mode, writing, closing⟩ := p
  cases writing with
  | inOrder s => rfl
  | byCrew limit feed =>
    obtain ⟨rfl, hopened⟩ := h
    exact Crew.writeAll_one hopened mode schedule w

lemma Plan.exists_inOrder_write {p : Plan} (h : p.writing.IsSequential) (schedule : List Choice)
    (w : World ρ ι) :
    ∃ j, w.Evolves j (p.write schedule w).2 ∧ consulted j <+: recordsOf p.writing.streams ∧
      (written j).Sublist (granted j) := by
  obtain ⟨j, evolves, hconsulted, hwritten⟩ := World.exists_inOrder_writeInOrder p.mode
    p.writing.inTurn.failure p.writing.inTurn.records 0 w
  rw [p.write_of_isSequential h]
  exact ⟨j, evolves, hconsulted.trans p.writing.records_inTurn_prefix, hwritten⟩

/-- A call with one record in flight asks about the records in their order, and writes rows in the
order in which they were granted. -/
theorem Course.inOrder {σ : Type} [ColumnStore σ] {strategy : Strategy} {settings : Settings}
    {schemas : Schema.Registry} {store : σ} {shard : Shard} {schedule : List Choice}
    {w w' : World ρ ι} {result written? : Except Failure Nat} {mode : WriteMode} {opens : Int}
    {complete : Option Int} {streams : List RecordStream} {tales : List Tale}
    {j tail : List Action}
    (h : Course mode opens complete streams result w w' written? tales j tail)
    (hseq : strategy.IsSequential settings) (hordered : strategy.IsOrdered)
    (hrun : strategy.run settings schemas store shard schedule w = (result, w')) :
    consulted j <+: recordsOf (strategy.streams settings schemas store shard) ∧
      (written j).Sublist (granted j) := by
  obtain ⟨p, hp, -, -, hclosing, -, hstreams⟩ :=
    Strategy.exists_plan settings schemas store shard hordered
  obtain ⟨j', hj', hconsulted, hwritten⟩ :=
    Plan.exists_inOrder_write (hseq.writing hp) schedule (w.announce p.opening)
  obtain ⟨tail', concluded, conclusion, -⟩ := Plan.exists_conclusion hclosing schedule w
  simp only [Strategy.run, hp] at hrun
  rw [hrun] at concluded conclusion
  have opened := (World.Evolves.refl (w := w)).announce p.opening
  have evolves : w.Evolves (.announced p.opening :: j' ++ tail') w' :=
    (opened.trans hj').trans concluded
  -- the journal of the call is that of its course, and but for the writing it says nothing
  obtain ⟨hc, hg, hw⟩ := h.views_eq
  rw [← h.evolves.since_eq, evolves.since_eq] at hc hg hw
  obtain ⟨hc', hg', hw'⟩ := conclusion.views_eq_nil
  rw [consulted_append, hc', List.append_nil] at hc
  rw [granted_append, hg', List.append_nil] at hg
  rw [written_append, hw', List.append_nil] at hw
  rw [← hc, ← hg, ← hw, ← hstreams]
  exact ⟨hconsulted, hwritten⟩

end Calls

end Bootstrap

/-! ## What a resolver answers -/

namespace Identity.Resolver

variable {ρ : Type} [Resolver ρ]

/-- What a resolver says about some records, one after another. -/
def answers (s : ρ) : List Record → List (Record × Answer)
  | [] => []
  | r :: rest => (r, (resolve s r).1) :: answers (resolve s r).2 rest

lemma answers_append (s : ρ) (l l' : List Record) :
    answers s (l ++ l') = answers s l ++ answers (l.foldl (fun s r => (resolve s r).2) s) l' := by
  induction l generalizing s with
  | nil => rfl
  | cons r rest ih => exact congrArg _ (ih _)

/-- Whether a resolver, as long as it is asked about some records only, says about each of them
what a function says about its key. -/
def AnswersByKey (s : ρ) (records : List Record) (g : Key → Answer) : Prop :=
  ∀ asked : List Record, asked ⊆ records → ∀ r ∈ records,
    (resolve (asked.foldl (fun s r => (resolve s r).2) s) r).1 = g r.key

end Identity.Resolver

namespace Bootstrap

open Identity RecordStream

section Answers

variable {ρ ι : Type} [Resolver ρ] [Index ι]

/-- What the resolver has said about the records that it was asked about. -/
def answered (j : List Action) : List (Record × Answer) :=
  j.filterMap fun
    | .consulted r answer => some (r, answer)
    | _ => none

lemma granted_eq_filterMap_answered (j : List Action) :
    granted j = (answered j).filterMap fun x => Action.grant? (.consulted x.1 x.2) := by
  rw [answered, List.filterMap_filterMap, granted]
  refine List.filterMap_congr fun a _ => ?_
  cases a <;> rfl

lemma mem_answered_iff {j : List Action} {r : Record} {answer : Answer} :
    (r, answer) ∈ answered j ↔ .consulted r answer ∈ j := by
  rw [answered, List.mem_filterMap]
  constructor
  · rintro ⟨a, ha, hr⟩
    split at hr
    · obtain ⟨rfl, rfl⟩ := Prod.mk.inj (Option.some.inj hr)
      exact ha
    · cases hr
  · intro ha
    exact ⟨_, ha, rfl⟩

/-- The records that a resolver is asked about fix all its answers. -/
lemma World.Evolves.answered_eq {w w' : World ρ ι} {j : List Action} (h : w.Evolves j w') :
    answered j = Resolver.answers w.resolver (consulted j) := by
  induction h with
  | refl => rfl
  | @concat j a w₁ w₂ hbefore hact ih =>
    rw [consulted_append, Resolver.answers_append, ← hbefore.resolver_eq, answered,
      List.filterMap_append, ← answered, ih]
    cases hact <;> rfl

/-- If a resolver answers by key, it does so in every call for its records. -/
lemma World.Evolves.answer_eq {w w' : World ρ ι} {j : List Action} {records : List Record}
    {g : Key → Answer} (h : w.Evolves j w') (hg : Resolver.AnswersByKey w.resolver records g)
    (hsub : consulted j ⊆ records) {r : Record} {answer : Answer}
    (ha : .consulted r answer ∈ j) : answer = g r.key := by
  induction h with
  | refl => cases ha
  | concat hbefore hact ih =>
    rw [consulted_append] at hsub
    rcases List.mem_append.1 ha with ha | ha
    · exact ih (List.append_subset.1 hsub).1 ha
    · obtain rfl := List.mem_singleton.1 ha
      cases hact with
      | consult =>
        rw [World.consult, hbefore.resolver_eq]
        exact hg _ (List.append_subset.1 hsub).1 r
          ((List.append_subset.1 hsub).2 (List.mem_singleton_self r))

variable {mode : WriteMode} {opens : Int} {complete : Option Int} {streams : List RecordStream}
  {result written? : Except Failure Nat} {n : Nat} {w w' : World ρ ι} {tales : List Tale}
  {j tail : List Action}

/-- The writing of a call begins with the resolver that the call has. -/
lemma Course.exists_writing
    (h : Course mode opens complete streams result w w' written? tales j tail) :
    ∃ w₁ w₂ : World ρ ι, w₁.resolver = w.resolver ∧ w₁.Evolves j w₂ := by
  obtain ⟨w₂, hfirst, -⟩ := World.Evolves.exists_between h.evolves
  obtain ⟨w₁, hopening, hwriting⟩ := World.Evolves.exists_of_cons hfirst
  refine ⟨w₁, w₂, ?_, hwriting⟩
  cases hopening
  rfl

/-- If all records are written in their order, what was said about them is what the resolver says
about them one after another, and the rows are those that it granted. -/
lemma Course.written_eq_of_inOrder
    (h : Course mode opens complete streams result w w' (.ok n) tales j tail)
    (hconsulted : consulted j <+: recordsOf streams) (hwritten : (written j).Sublist (granted j)) :
    answered j = Resolver.answers w.resolver (recordsOf streams) ∧
      written j = (answered j).filterMap fun x => Action.grant? (.consulted x.1 x.2) := by
  have asked : consulted j = recordsOf streams :=
    hconsulted.eq_of_length h.account.consulted_perm.length_eq
  obtain ⟨w₁, w₂, same, hwriting⟩ := h.exists_writing
  refine ⟨?_, ?_⟩
  · rw [hwriting.answered_eq, same, asked]
  · rw [← granted_eq_filterMap_answered]
    exact hwritten.eq_of_length h.account.written_perm_granted.length_eq

end Answers

end Bootstrap

end ShardIndex
