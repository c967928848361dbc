import ShardIndex.Index.Durable

/-!
# Sealed indexes

An index whose table may only be read.  Writes are gathered as in any other, but a commit of them
fails, so the table stays as it is (`stored_perform`).
-/

namespace ShardIndex

/-- An index whose table may only be read. -/
structure SealedIndex where
  inner : DurableIndex

namespace SealedIndex

instance : Index SealedIndex where
  perform x r :=
    match r with
    | .write mode key entry => (none, ⟨x.inner.write mode key entry⟩)
    | r =>
      if x.inner.pending.rows.isEmpty then
        let (outcome, inner) := Index.perform x.inner r
        (outcome, ⟨inner⟩)
      else (some .databaseSealed, x)
  announce x e := ⟨Index.announce x.inner e⟩

/-- No request changes the table. -/
theorem stored_perform (x : SealedIndex) (r : Request) :
    (Index.perform x r).2.inner.stored = x.inner.stored := by
  cases r with
  | write mode key entry => rfl
  | commit =>
    by_cases h : x.inner.pending.rows.isEmpty <;>
      simp [Index.perform, h, DurableIndex.commit]
  | refreshReaders =>
    by_cases h : x.inner.pending.rows.isEmpty <;>
      simp [Index.perform, h, DurableIndex.refresh, DurableIndex.commit]

end SealedIndex

end ShardIndex
