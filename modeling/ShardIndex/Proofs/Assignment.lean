import ShardIndex.Proofs.Calls
import ShardIndex.Proofs.Rows

/-!
# Which ids a call gives

An assignment of ids by key grows (`Keyed.Grows`): keys that have an id keep it, and new keys get
the next ids, each its own, with none left out.  One answer makes it grow by one key at most, so
over a call it grows by the new keys of the call, whatever the order of the questions
(`Evolves.exists_grows`).  If all records of a call are written, the new keys are those of the
records that had no id (`Course.exists_news`).

The ids that another resolver gives may depend on the key alone (`Resolver.IsByKey`); in a call
they then do so whatever was asked before (`Evolves.eq_of_isByKey`).
-/

namespace ShardIndex

namespace Identity

/-! ## Assignments that grow -/

lemma Counter.exists_allocate {c : Counter} (h : ¬ c.limit < c.next) :
    ∃ c', c.allocate = (.ok c.next, c') ∧ c'.next = c.next + 1 ∧ c'.limit = c.limit := by
  rw [allocate, if_neg h]
  dsimp only
  split <;> exact ⟨_, rfl, rfl, rfl⟩

lemma Counter.allocate_of_lt {c : Counter} (h : c.limit < c.next) :
    c.allocate = (.error (.idsExhausted c.next), c) :=
  if_pos h

/-- An assignment has become another by giving the next ids to some new keys, in their order. -/
structure Keyed.Grows (k k' : Keyed) (news : List Key) : Prop where
  /-- No new key is listed twice. -/
  nodup : news.Nodup
  /-- No new key had an id. -/
  unknown : ∀ key ∈ news, k.ids.get? key = none
  /-- The new keys have the next ids, and nothing else has changed. -/
  rows : k'.ids.rows.Perm (k.ids.rows ++ news.zipIdx k.counter.next)
  /-- Counting goes on after them. -/
  next : k'.counter.next = k.counter.next + news.length
  /-- The limit stays. -/
  limit : k'.counter.limit = k.counter.limit
  /-- No id lies beyond it. -/
  bounded : news = [] ∨ k'.counter.next ≤ k.counter.limit + 1

namespace Keyed

lemma Grows.refl (k : Keyed) : k.Grows k [] where
  nodup := List.nodup_nil
  unknown _ h := by cases h
  rows := List.Perm.of_eq (List.append_nil _).symm
  next := rfl
  limit := rfl
  bounded := Or.inl rfl

namespace Grows

variable {k k' k'' : Keyed} {news news' : List Key} {key : Key} {n : PartId}

/-- A key has an id afterwards if it had it before, or it is new and its turn has come. -/
lemma get?_eq_some_iff (h : k.Grows k' news) :
    k'.ids.get? key = some n ↔
      k.ids.get? key = some n ∨ (key, n) ∈ news.zipIdx k.counter.next := by
  rw [Table.get?_eq_some_iff, h.rows.mem_iff, List.mem_append, Table.get?_eq_some_iff]

lemma get?_of_some (h : k.Grows k' news) (hkey : k.ids.get? key = some n) :
    k'.ids.get? key = some n :=
  h.get?_eq_some_iff.2 (Or.inl hkey)

lemma get?_of_getElem? {i : Nat} (h : k.Grows k' news) (hkey : news[i]? = some key) :
    k'.ids.get? key = some (k.counter.next + i) :=
  h.get?_eq_some_iff.2 (Or.inr (List.mk_add_mem_zipIdx_iff_getElem?.2 hkey))

lemma get?_of_notMem (h : k.Grows k' news) (hkey : key ∉ news) :
    k'.ids.get? key = k.ids.get? key := by
  ext n
  rw [h.get?_eq_some_iff, or_iff_left]
  exact fun hmem => hkey (List.fst_mem_of_mem_zipIdx hmem)

lemma isSome_of_mem (h : k.Grows k' news) (hkey : key ∈ news) : (k'.ids.get? key).isSome := by
  obtain ⟨i, hi⟩ := List.mem_iff_getElem?.1 hkey
  rw [h.get?_of_getElem? hi]
  rfl

lemma trans (h : k.Grows k' news) (h' : k'.Grows k'' news') : k.Grows k'' (news ++ news') where
  nodup := by
    refine List.nodup_append.2 ⟨h.nodup, h'.nodup, fun a ha b hb hab => ?_⟩
    -- a key that is new the second time had no id after the first
    have known := h.isSome_of_mem ha
    rw [hab, h'.unknown b hb] at known
    cases known
  unknown key hkey := by
    rcases List.mem_append.1 hkey with hkey | hkey
    · exact h.unknown key hkey
    · refine Option.eq_none_iff_forall_not_mem.2 fun n hn => ?_
      cases (h'.unknown key hkey).symm.trans (h.get?_of_some hn)
  rows := by
    rw [List.zipIdx_append, ← List.append_assoc, ← h.next]
    exact h'.rows.trans (h.rows.append_right _)
  next := by rw [h'.next, h.next, List.length_append, Nat.add_assoc]
  limit := h'.limit.trans h.limit
  bounded := by
    rcases h'.bounded with rfl | hbound
    · rw [List.append_nil, h'.next, List.length_nil, Nat.add_zero]
      exact h.bounded
    · exact Or.inr (h.limit ▸ hbound)

end Grows

/-- A question has one of three outcomes: a key that has an id keeps it, and another gets the next
id, unless that lies beyond the limit.  In the first case and the last nothing changes. -/
lemma assign_cases (k : Keyed) (key : Key) :
    (∃ n, k.ids.get? key = some n ∧ k.assign key = (.ok n, k)) ∨
      (k.ids.get? key = none ∧ k.counter.next ≤ k.counter.limit ∧
        ∃ k', k.assign key = (.ok k.counter.next, k') ∧ k.Grows k' [key]) ∨
      (k.ids.get? key = none ∧ k.counter.limit < k.counter.next ∧
        k.assign key = (.error (.idsExhausted k.counter.next), k)) := by
  cases hkey : k.ids.get? key with
  | some n => exact Or.inl ⟨n, rfl, by rw [assign, hkey]⟩
  | none =>
    right
    by_cases hlimit : k.counter.limit < k.counter.next
    · right
      refine ⟨rfl, hlimit, ?_⟩
      rw [assign, hkey, Counter.allocate_of_lt hlimit]
    · left
      obtain ⟨counter, hcounter, hnext, hlimit'⟩ := Counter.exists_allocate hlimit
      have hassign : k.assign key =
          (.ok k.counter.next, ⟨k.ids.insert key k.counter.next, counter⟩) := by
        rw [assign, hkey, hcounter]
      refine ⟨rfl, Nat.le_of_not_lt hlimit, _, hassign, ?_⟩
      exact
        { nodup := List.nodup_singleton key
          unknown := fun x hx => List.mem_singleton.1 hx ▸ hkey
          rows := (Table.rows_insert_perm hkey _).trans (List.perm_append_singleton _ _).symm
          next := hnext
          limit := hlimit'
          bounded := Or.inr (by rw [hnext]; omega) }

/-- A question makes an assignment grow by its key at most, and an id that it is answered with is
the key's id from then on. -/
lemma grows_assign (k : Keyed) (key : Key) :
    ∃ news, k.Grows (k.assign key).2 news ∧ (∀ x ∈ news, x = key) ∧
      ∀ n, (k.assign key).1 = .ok n → (k.assign key).2.ids.get? key = some n := by
  have nothing : ∀ x ∈ ([] : List Key), x = key := fun x hx => by cases hx
  rcases k.assign_cases key with
    ⟨n, hkey, hassign⟩ | ⟨-, -, k', hassign, grows⟩ | ⟨-, -, hassign⟩ <;> rw [hassign]
  · refine ⟨[], Grows.refl k, nothing, fun m hm => ?_⟩
    rw [← Except.ok.inj hm]
    exact hkey
  · refine ⟨[key], grows, fun x hx => List.mem_singleton.1 hx, fun m hm => ?_⟩
    rw [← Except.ok.inj hm]
    exact grows.get?_of_getElem? (i := 0) rfl
  · exact ⟨[], Grows.refl k, nothing, fun m hm => by cases hm⟩

end Keyed

/-! ## Answers that depend on the key -/

/-- Whether the ids that a resolver gives are those of its keys under a function, whatever it was
asked before. -/
def Resolver.IsByKey {ρ : Type} [Resolver ρ] (s : ρ) (f : Key → PartId) : Prop :=
  ∀ (asked : List Record) (r : Record) (n : PartId),
    (Resolver.resolve (asked.foldl (fun s r => (Resolver.resolve s r).2) s) r).1 = .id n →
      n = f r.key

lemma Rule.foldl_resolve (rule : Rule) (asked : List Record) :
    asked.foldl (fun s r => (Resolver.resolve s r).2) rule = rule := by
  induction asked with
  | nil => rfl
  | cons _ _ ih => exact ih

/-- A rule that answers by key does so always. -/
lemma Rule.isByKey (f : Key → PartId) : Resolver.IsByKey (⟨fun r => .id (f r.key)⟩ : Rule) f := by
  intro asked r n h
  rw [Rule.foldl_resolve] at h
  exact (Answer.id.inj h).symm

end Identity

namespace Bootstrap.World

open Identity

variable {ι : Type} [Index ι] {j : List Action}

/-- An action makes an assignment grow by the key that was asked about, if that is new. -/
lemma Acts.exists_grows {w w' : World Keyed ι} {a : Action} (h : w.Acts a w') :
    ∃ news, w.resolver.Grows w'.resolver news ∧ (∀ key ∈ news, ∃ r ∈ consulted [a], r.key = key) ∧
      ∀ r n, a = .consulted r (.id n) → w'.resolver.ids.get? r.key = some n := by
  cases h with
  | consult r =>
    obtain ⟨news, grows, hkey, hanswer⟩ := w.resolver.grows_assign r.key
    refine ⟨news, grows, fun key hmem => ⟨r, List.mem_singleton_self r, (hkey key hmem).symm⟩, ?_⟩
    intro r' n ha
    obtain ⟨rfl, hn⟩ := Action.consulted.inj ha
    have hn : Answer.ofExcept (w.resolver.assign r.key).1 = .id n := hn
    refine hanswer n ?_
    cases hassign : (w.resolver.assign r.key).1 with
    | ok m =>
      rw [hassign] at hn
      exact congrArg Except.ok (Answer.id.inj hn)
    | error e =>
      rw [hassign] at hn
      cases hn
  | request r =>
    exact ⟨[], .refl _, fun key hkey => absurd hkey List.not_mem_nil, fun r n ha => by cases ha⟩
  | announce e =>
    exact ⟨[], .refl _, fun key hkey => absurd hkey List.not_mem_nil, fun r n ha => by cases ha⟩

/-- Over a journal an assignment grows by new keys that were asked about, and has the ids that it
has given. -/
theorem Evolves.exists_grows {w w' : World Keyed ι} (h : w.Evolves j w') :
    ∃ news, w.resolver.Grows w'.resolver news ∧ (∀ key ∈ news, ∃ r ∈ consulted j, r.key = key) ∧
      ∀ r n, .consulted r (.id n) ∈ j → w'.resolver.ids.get? r.key = some n := by
  induction h with
  | refl =>
    exact ⟨[], .refl _, fun key hkey => absurd hkey List.not_mem_nil, fun r n ha => by cases ha⟩
  | concat _ hact ih =>
    obtain ⟨news, grows, hasked, hgiven⟩ := ih
    obtain ⟨more, grows', hasked', hgiven'⟩ := hact.exists_grows
    refine ⟨news ++ more, grows.trans grows', fun key hmem => ?_, fun r n ha => ?_⟩
    · rw [consulted_append]
      rcases List.mem_append.1 hmem with hmem | hmem
      · obtain ⟨r, hr, hkey⟩ := hasked key hmem
        exact ⟨r, List.mem_append_left _ hr, hkey⟩
      · obtain ⟨r, hr, hkey⟩ := hasked' key hmem
        exact ⟨r, List.mem_append_right _ hr, hkey⟩
    · rcases List.mem_append.1 ha with ha | ha
      · exact grows'.get?_of_some (hgiven r n ha)
      · exact hgiven' r n (List.mem_singleton.1 ha).symm

variable {ρ : Type} [Resolver ρ]

lemma Evolves.resolver_eq {w w' : World ρ ι} (h : w.Evolves j w') :
    w'.resolver = (consulted j).foldl (fun s r => (Resolver.resolve s r).2) w.resolver := by
  induction h with
  | refl => rfl
  | concat _ hact ih =>
    rw [consulted_append, List.foldl_append, ← ih]
    cases hact <;> rfl

/-- If a resolver gives ids by key, it does so in every call. -/
theorem Evolves.eq_of_isByKey {w w' : World ρ ι} {f : Key → PartId} (h : w.Evolves j w')
    (hf : Resolver.IsByKey w.resolver f) {r : Record} {n : PartId}
    (ha : .consulted r (.id n) ∈ j) : n = f r.key := by
  induction h with
  | refl => cases ha
  | concat hbefore hact ih =>
    rcases List.mem_append.1 ha with ha | ha
    · exact ih ha
    · obtain rfl := List.mem_singleton.1 ha
      generalize hanswer : Answer.id n = answer at hact
      cases hact with
      | consult =>
        rw [World.consult, hbefore.resolver_eq] at hanswer
        exact hf _ r n hanswer.symm

lemma Evolves.isByKey {w w' : World ρ ι} {f : Key → PartId} (h : w.Evolves j w')
    (hf : Resolver.IsByKey w.resolver f) : Resolver.IsByKey w'.resolver f := by
  intro asked r n hanswer
  rw [h.resolver_eq, ← List.foldl_append] at hanswer
  exact hf _ r n hanswer

end Bootstrap.World

/-! ## Calls -/

namespace Bootstrap

open Identity

variable {ι : Type} [Index ι] {w w' : World Keyed ι} {mode : WriteMode} {opens : Int}
  {complete : Option Int} {streams : List RecordStream} {result : Except Failure Nat} {n : Nat}
  {tales : List Tale} {j tail : List Action}

/-- If all records of a call are written, its assignment has grown by the keys of the records that
had no id, and has the ids that it has given. -/
theorem Course.exists_news
    (h : Course mode opens complete streams result w w' (.ok n) tales j tail) :
    ∃ news, w.resolver.Grows w'.resolver news ∧
      (∀ key, key ∈ news ↔
        (∃ r ∈ RecordStream.recordsOf streams, r.key = key) ∧ w.resolver.ids.get? key = none) ∧
      ∀ r m, .consulted r (.id m) ∈ j → w'.resolver.ids.get? r.key = some m := by
  obtain ⟨news, grows, hasked, hgiven⟩ := h.evolves.exists_grows
  have given {r : Record} {m : PartId} (ha : .consulted r (.id m) ∈ j) :
      w'.resolver.ids.get? r.key = some m :=
    hgiven r m (List.mem_append_left _ (List.mem_append_right _ ha))
  refine ⟨news, grows, fun key => ?_, fun r m => given⟩
  constructor
  · intro hmem
    obtain ⟨r, hr, hkey⟩ := hasked key hmem
    exact ⟨⟨r, h.consulted_subperm.subset hr, hkey⟩, grows.unknown key hmem⟩
  · rintro ⟨⟨r, hr, rfl⟩, hunknown⟩
    obtain ⟨m, ha⟩ := h.account.exists_id_of_mem hr
    -- a key that is not among the new ones kept what it had, and that was no id
    by_contra hold
    cases (given ha).symm.trans ((grows.get?_of_notMem hold).trans hunknown)

end Bootstrap

end ShardIndex
