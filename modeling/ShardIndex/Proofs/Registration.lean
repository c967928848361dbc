import ShardIndex.Schema.Registry
import Mathlib.Data.List.Induction
import Mathlib.Data.List.Nodup

/-!
# Registration of schemas

Schemas are registered one after another, and one whose id is taken is refused without a trace.
So the registry of a history of registrations knows, for each id, the first schema that came with
it (`Registry.IsOf.owner`), and it has as many schemas as there were registrations that ended well.
A list of definitions is accepted as a whole exactly if no two of its ids are equal
(`ofDefinitions_eq_ok_iff`), so their order does not matter.

A key begins with the id of its schema, and distinct schemas of a registry have distinct ids; hence
each key of a known schema is traced back to it, and projected as the schema says.  The main
statement is `registration`.
-/

namespace ShardIndex.Schema

/-- A key is too short for the id of a schema exactly if it has fewer than two bytes. -/
lemma decodeKey_eq_none_iff {key : Key} : decodeKey key = none ↔ key.length < 2 := by
  rcases key with _ | ⟨low, _ | ⟨high, series⟩⟩ <;> simp [decodeKey]

namespace Registry

variable {r : Registry} {d owner : Definition} {id : UInt16} {defs : List Definition}

/-! ## One registration -/

/-- Why a schema is refused whose id another one owns. -/
def refusal (owner d : Definition) : Failure :=
  if owner.name = d.name then .schemaRepeated d.name
  else .schemaCollision d.name owner.name d.id

lemma find?_eq_none_iff : r.find? id = none ↔ ∀ d ∈ r.definitions, d.id ≠ id := by
  simp [find?]

lemma find?_of_mem (h : (r.definitions.map Definition.id).Nodup) (hd : d ∈ r.definitions) :
    r.find? d.id = some d := by
  cases hfind : r.find? d.id with
  | none => exact absurd rfl (find?_eq_none_iff.1 hfind d hd)
  | some owner =>
    have hmem : owner ∈ r.definitions := List.mem_of_find?_eq_some hfind
    have hid : owner.id = d.id := by
      have := List.find?_some hfind
      simpa using this
    rw [List.inj_on_of_nodup_map h hmem hd hid]

lemma nodup_concat_iff :
    ((defs ++ [d]).map Definition.id).Nodup ↔
      (defs.map Definition.id).Nodup ∧ (⟨defs⟩ : Registry).find? d.id = none := by
  rw [List.map_append, List.nodup_append, find?_eq_none_iff]
  constructor
  · rintro ⟨hnodup, -, hne⟩
    refine ⟨hnodup, fun d' hd' => ?_⟩
    exact hne _ (List.mem_map_of_mem hd') _ (List.mem_singleton_self _)
  · rintro ⟨hnodup, hne⟩
    refine ⟨hnodup, List.nodup_singleton _, fun id hid id' hid' => ?_⟩
    obtain ⟨d', hd', rfl⟩ := List.mem_map.1 hid
    obtain rfl := List.mem_singleton.1 hid'
    exact hne d' hd'

lemma register_of_free (h : r.find? d.id = none) :
    r.register d = .ok (d.id, ⟨r.definitions ++ [d]⟩) := by
  rw [register, h]

lemma register_of_owner (h : r.find? d.id = some owner) :
    r.register d = .error (refusal owner d) := by
  rw [register, h, refusal]
  dsimp only
  split <;> rfl

/-! ## Registrations one after another -/

lemma registerAll_concat (r : Registry) (defs : List Definition) (d : Definition) :
    r.registerAll (defs ++ [d]) =
      match (r.registerAll defs).2.register d with
      | .error e => ((r.registerAll defs).1 ++ [.error e], (r.registerAll defs).2)
      | .ok (id, r') => ((r.registerAll defs).1 ++ [.ok id], r') := by
  induction defs generalizing r with
  | nil =>
    cases hregister : r.register d <;> simp [registerAll, hregister]
  | cons first rest ih =>
    simp only [List.cons_append, registerAll]
    cases r.register first with
    | error e =>
      simp only [ih]
      cases (r.registerAll rest).2.register d <;> rfl
    | ok result =>
      simp only [ih]
      cases (result.2.registerAll rest).2.register d <;> rfl

/-- What a registry has to do with the history that has led to it. -/
structure IsOf (r : Registry) (defs : List Definition) (results : List (Except Failure UInt16)) :
    Prop where
  /-- The first schema with an id owns it. -/
  owner : ∀ id, r.find? id = defs.find? fun d => d.id = id
  /-- No two schemas have the same id. -/
  nodup : (r.definitions.map Definition.id).Nodup
  /-- There is one schema for each registration that ended well. -/
  size : r.size = results.countP Except.isOk

namespace IsOf

variable {results : List (Except Failure UInt16)}

lemma empty : empty.IsOf [] [] := ⟨fun _ => rfl, List.nodup_nil, rfl⟩

lemma accept (h : r.IsOf defs results) (hfree : r.find? d.id = none) :
    IsOf ⟨r.definitions ++ [d]⟩ (defs ++ [d]) (results ++ [.ok d.id]) where
  owner id := by
    have hfind := h.owner id
    rw [find?] at hfind ⊢
    rw [List.find?_append, List.find?_append, hfind]
  nodup := nodup_concat_iff.2 ⟨h.nodup, hfree⟩
  size := by
    have hsize := h.size
    simp only [Registry.size, List.length_append, List.countP_append] at hsize ⊢
    rw [hsize]
    rfl

lemma refuse (h : r.IsOf defs results) (howner : r.find? d.id = some owner) (e : Failure) :
    r.IsOf (defs ++ [d]) (results ++ [.error e]) where
  owner id := by
    rw [List.find?_append, ← h.owner]
    by_cases hid : d.id = id
    · -- the id that is asked for has its owner already
      rw [← hid, howner]
      rfl
    · simp [hid]
  nodup := h.nodup
  size := by
    rw [h.size, List.countP_append]
    rfl

end IsOf

/-- The registry of a history of registrations that begins with none. -/
lemma isOf_registerAll (defs : List Definition) :
    (empty.registerAll defs).2.IsOf defs (empty.registerAll defs).1 := by
  induction defs using List.reverseRecOn with
  | nil => exact .empty
  | append_singleton defs d ih =>
    rw [registerAll_concat]
    cases hfind : (empty.registerAll defs).2.find? d.id with
    | none =>
      rw [register_of_free hfind]
      exact ih.accept hfind
    | some owner =>
      rw [register_of_owner hfind]
      exact ih.refuse hfind _

/-! ## Lists of definitions -/

lemma ofDefinitions_concat (defs : List Definition) (d : Definition) :
    ofDefinitions (defs ++ [d]) =
      (ofDefinitions defs).bind fun r => (r.register d).map Prod.snd := by
  rw [ofDefinitions, List.foldlM_append]
  simp only [List.foldlM_cons, List.foldlM_nil, bind_pure]
  rfl

/-- A list of definitions is accepted exactly if their ids are distinct, and then all of them are
registered. -/
lemma ofDefinitions_eq_ok_iff :
    ofDefinitions defs = .ok r ↔ (defs.map Definition.id).Nodup ∧ r = ⟨defs⟩ := by
  induction defs using List.reverseRecOn generalizing r with
  | nil =>
    show Except.ok empty = .ok r ↔ _
    simp [eq_comm, empty]
  | append_singleton defs d ih =>
    rw [ofDefinitions_concat, nodup_concat_iff]
    cases hdefs : ofDefinitions defs with
    | error e =>
      -- some of the earlier ids are equal
      have hnodup : ¬ (defs.map Definition.id).Nodup := fun hnodup => by
        cases hdefs.symm.trans (ih.2 ⟨hnodup, rfl⟩)
      simp [Except.bind, hnodup]
    | ok r₀ =>
      obtain ⟨hnodup, rfl⟩ := ih.1 hdefs
      cases hfind : (⟨defs⟩ : Registry).find? d.id with
      | none => simp [Except.bind, Except.map, register_of_free hfind, hnodup, eq_comm]
      | some owner => simp [Except.bind, Except.map, register_of_owner hfind]

/-- Definitions with distinct ids lead to the same registry one after another. -/
lemma registerAll_of_nodup (h : (defs.map Definition.id).Nodup) :
    (empty.registerAll defs).2 = ⟨defs⟩ := by
  induction defs using List.reverseRecOn with
  | nil => rfl
  | append_singleton defs d ih =>
    obtain ⟨hnodup, hfree⟩ := nodup_concat_iff.1 h
    rw [registerAll_concat, ih hnodup, register_of_free hfree]

/-! ## Keys of known schemas -/

/-- What a registry says of a key depends on the schema that owns the id in front. -/
lemma schemaName_of_decodeKey {key : Key} {series : Bytes} (h : decodeKey key = some (id, series)) :
    r.schemaName key = (r.find? id).map Definition.name := by
  cases hfind : r.find? id <;> simp [schemaName, h, hfind]

lemma downsampleKey_of_decodeKey {key : Key} {series : Bytes}
    (h : decodeKey key = some (id, series)) :
    r.downsampleKey key =
      ((r.find? id).bind Definition.downsample).map fun target => encodeKey target series := by
  cases hfind : r.find? id with
  | none => simp [downsampleKey, h, hfind]
  | some d => cases htarget : d.downsample <;> simp [downsampleKey, h, hfind, htarget]

/-- A key without an id in front is known to no registry. -/
lemma eq_none_of_decodeKey {key : Key} (h : decodeKey key = none) :
    r.schemaName key = none ∧ r.downsampleKey key = none := by
  rw [schemaName, downsampleKey, h]
  exact ⟨rfl, rfl⟩

/-- **Registration.**  A list of definitions is accepted as a whole exactly if their ids are
distinct, whatever their order, and gives the registry to which its registrations one after another
lead.

Registrations one after another go on after each that is refused.  A registration that is refused
leaves the registry as it was; the registry has one schema for each that ended well; and each id
belongs to the first schema that came with it.

A key that was made for a schema of the registry and any series is traced back to the schema, and
projected to the same series under the downsampled schema if there is one.  A key of fewer than two
bytes, or with an id that was never registered, is neither traced nor projected.  The projection of
a record keeps its window. -/
theorem registration (defs : List Definition) :
    let results := (empty.registerAll defs).1
    let r := (empty.registerAll defs).2
    ((∃ r', ofDefinitions defs = .ok r') ↔ (defs.map Definition.id).Nodup) ∧
    (∀ defs', defs'.Perm defs →
      ((∃ r', ofDefinitions defs' = .ok r') ↔ ∃ r', ofDefinitions defs = .ok r')) ∧
    (∀ r', ofDefinitions defs = .ok r' → r' = r) ∧
    (∀ d e, r.register d = .error e →
      empty.registerAll (defs ++ [d]) = (results ++ [.error e], r)) ∧
    r.size = results.countP Except.isOk ∧
    (∀ id, r.find? id = defs.find? fun d => d.id = id) ∧
    (∀ d ∈ r.definitions, ∀ series,
      r.schemaName (encodeKey d.name series) = some d.name ∧
      r.downsampleKey (encodeKey d.name series) =
        d.downsample.map fun target => encodeKey target series) ∧
    (∀ key : Key, (key.length < 2 ∨
        ∃ id series, decodeKey key = some (id, series) ∧ ∀ d ∈ defs, d.id ≠ id) →
      r.schemaName key = none ∧ r.downsampleKey key = none) ∧
    ∀ record, r.downsampleRecord record =
      (r.downsampleKey record.key).map fun key => ⟨key, record.startTime, record.endTime⟩ := by
  intro results r
  have accepted (defs : List Definition) :
      (∃ r', ofDefinitions defs = .ok r') ↔ (defs.map Definition.id).Nodup := by
    simp [ofDefinitions_eq_ok_iff]
  have known : r.IsOf defs results := isOf_registerAll defs
  refine ⟨accepted defs, fun defs' hperm => ?_, fun r' hr' => ?_, fun d e he => ?_, known.size,
    known.owner, fun d hd series => ?_, fun key hkey => ?_, fun record => rfl⟩
  · rw [accepted, accepted]
    exact (hperm.map Definition.id).nodup_iff
  · obtain ⟨hnodup, rfl⟩ := ofDefinitions_eq_ok_iff.1 hr'
    exact (registerAll_of_nodup hnodup).symm
  · have refused : (empty.registerAll defs).2.register d = .error e := he
    rw [registerAll_concat, refused]
  · have hdecode : decodeKey (encodeKey d.name series) = some (d.id, series) :=
      decodeKey_keyOf d.id series
    have howner : r.find? d.id = some d := find?_of_mem known.nodup hd
    rw [schemaName_of_decodeKey hdecode, downsampleKey_of_decodeKey hdecode, howner]
    exact ⟨rfl, rfl⟩
  · rcases hkey with hshort | ⟨id, series, hdecode, hunknown⟩
    · exact eq_none_of_decodeKey (decodeKey_eq_none_iff.2 hshort)
    · have hnone : r.find? id = none := by
        rw [known.owner]
        simpa using hunknown
      rw [schemaName_of_decodeKey hdecode, downsampleKey_of_decodeKey hdecode, hnone]
      exact ⟨rfl, rfl⟩

/-- Registrations of which two are refused: the second name shares its id with the first, and the
third is the first again. -/
def fourDefinitions : List Definition :=
  [⟨"volt-wait", some "volt-day"⟩, ⟨"volt-log", none⟩, ⟨"volt-wait", none⟩, ⟨"gauge", none⟩]

/-- Two schemas are known in the end.  The first is the one that has a projection; the id of
`counter` is not known. -/
theorem registration_fourDefinitions :
    (empty.registerAll fourDefinitions).1.map Except.isOk = [true, false, false, true] ∧
      ¬ (∃ r, ofDefinitions fourDefinitions = .ok r) ∧
      (empty.registerAll fourDefinitions).2.size = 2 ∧
      (empty.registerAll fourDefinitions).2.schemaName (encodeKey "volt-wait" [7]) =
        some "volt-wait" ∧
      (empty.registerAll fourDefinitions).2.downsampleKey (encodeKey "volt-wait" [7]) =
        some (encodeKey "volt-day" [7]) ∧
      (empty.registerAll fourDefinitions).2.schemaName (encodeKey "counter" [7]) = none ∧
      (empty.registerAll fourDefinitions).2.downsampleKey [222] = none := by
  obtain ⟨haccepted, -, -, -, hsize, -, hknown, hunknown, -⟩ := registration fourDefinitions
  have results : (empty.registerAll fourDefinitions).1.map Except.isOk =
      [true, false, false, true] := by decide +kernel
  have collision : ¬ (fourDefinitions.map Definition.id).Nodup := by decide +kernel
  have first : (⟨"volt-wait", some "volt-day"⟩ : Definition) ∈
      (empty.registerAll fourDefinitions).2.definitions := by decide +kernel
  have other : ∀ d ∈ fourDefinitions, d.id ≠ idOf "counter" := by decide +kernel
  obtain ⟨hname, hprojection⟩ := hknown _ first [7]
  refine ⟨results, fun h => collision (haccepted.1 h), ?_, hname, hprojection, ?_, ?_⟩
  · rw [hsize]
    decide +kernel
  · exact (hunknown _ (Or.inr ⟨_, _, decodeKey_keyOf (idOf "counter") [7], other⟩)).1
  · exact (hunknown _ (Or.inl (by decide))).2

end Registry

end ShardIndex.Schema
