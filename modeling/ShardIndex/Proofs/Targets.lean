import ShardIndex.Proofs.Refresh
import ShardIndex.Proofs.Registration

/-!
# Series of different targets

Raw schemas have different ids, or they are refused.  The schemas that they are downsampled into,
their targets, are not looked at when they are registered, and two of them may share an id.  A
downsampled key says no more of its target than the id, so the keys of two series are the same just
if the ids of their targets are and what follows in the keys is (`Registry.downsampleKey_eq_iff`).

So different targets are kept apart by a registry exactly if their ids are different
(`Registry.TargetsApart`), and then no entry of a refresh is made of series of two targets.  The
main result is `Bootstrap.targets_of_refresh`.
-/

namespace ShardIndex

namespace Schema.Registry

/-- The schema that the series of a key is downsampled into, if it is. -/
def target? (r : Registry) (key : Key) : Option String := do
  let (id, _) ← decodeKey key
  (← r.find? id).downsample

/-- Whether different targets have different ids. -/
def TargetsApart (r : Registry) : Prop :=
  ∀ d ∈ r.definitions, ∀ d' ∈ r.definitions, ∀ t ∈ d.downsample, ∀ t' ∈ d'.downsample,
    idOf t = idOf t' → t = t'

variable {r : Registry} {defs : List Definition} {d : Definition} {key key' : Key} {t t' : String}

lemma target?_of_decodeKey {id : UInt16} {series : Bytes}
    (h : decodeKey key = some (id, series)) :
    r.target? key = (r.find? id).bind Definition.downsample := by
  rw [target?, h]
  rfl

lemma exists_of_target?_eq_some (h : r.target? key = some t) :
    ∃ d ∈ r.definitions, d.downsample = some t := by
  cases hdecode : decodeKey key with
  | none =>
    rw [target?, hdecode] at h
    cases h
  | some parts =>
    rw [target?_of_decodeKey hdecode] at h
    obtain ⟨d, hfind, hd⟩ := Option.bind_eq_some_iff.1 h
    exact ⟨d, List.mem_of_find?_eq_some hfind, hd⟩

lemma drop_two_of_decodeKey {id : UInt16} {series : Bytes}
    (h : decodeKey key = some (id, series)) : key.drop 2 = series := by
  rcases key with _ | ⟨low, _ | ⟨high, rest⟩⟩
  · cases h
  · cases h
  · exact congrArg Prod.snd (Option.some.inj h)

lemma downsampleKey_eq_map (r : Registry) (key : Key) :
    r.downsampleKey key = (r.target? key).map fun t => encodeKey t (key.drop 2) := by
  cases hdecode : decodeKey key with
  | none =>
    rw [(eq_none_of_decodeKey hdecode).2, target?, hdecode]
    rfl
  | some parts =>
    rw [downsampleKey_of_decodeKey hdecode, target?_of_decodeKey hdecode,
      drop_two_of_decodeKey hdecode]

lemma encodeKey_inj {series series' : Bytes} :
    encodeKey t series = encodeKey t' series' ↔ idOf t = idOf t' ∧ series = series' := by
  constructor
  · intro h
    have parts := congrArg decodeKey h
    rw [encodeKey, encodeKey, decodeKey_keyOf, decodeKey_keyOf] at parts
    exact Prod.mk.inj (Option.some.inj parts)
  · rintro ⟨hid, rfl⟩
    rw [encodeKey, encodeKey, hid]

/-- Series that have targets get one key if the ids of their targets are the same, and the series
themselves are. -/
lemma downsampleKey_eq_iff (h : r.target? key = some t) (h' : r.target? key' = some t') :
    r.downsampleKey key = r.downsampleKey key' ↔
      idOf t = idOf t' ∧ key.drop 2 = key'.drop 2 := by
  rw [downsampleKey_eq_map, downsampleKey_eq_map, h, h', Option.map_some, Option.map_some,
    Option.some_inj, encodeKey_inj]

lemma target?_encodeKey (h : (r.definitions.map Definition.id).Nodup) (hd : d ∈ r.definitions)
    (series : Bytes) : r.target? (encodeKey d.name series) = d.downsample := by
  have hdecode : decodeKey (encodeKey d.name series) = some (d.id, series) :=
    decodeKey_keyOf d.id series
  rw [target?_of_decodeKey hdecode, find?_of_mem h hd]
  rfl

/-- Where different targets have different ids, series that get one key have one target. -/
lemma TargetsApart.target_eq (h : r.TargetsApart) (ht : r.target? key = some t)
    (ht' : r.target? key' = some t') (hkey : r.downsampleKey key = r.downsampleKey key') :
    t = t' := by
  obtain ⟨d, hd, hdt⟩ := exists_of_target?_eq_some ht
  obtain ⟨d', hd', hdt'⟩ := exists_of_target?_eq_some ht'
  exact h d hd d' hd' t hdt t' hdt' ((downsampleKey_eq_iff ht ht').1 hkey).1

/-- Series of different targets get different keys exactly if the ids of the targets are
different. -/
lemma forall_ne_iff_targetsApart (h : ofDefinitions defs = .ok r) :
    (∀ key key' t t', r.target? key = some t → r.target? key' = some t' → t ≠ t' →
      r.downsampleKey key ≠ r.downsampleKey key') ↔ r.TargetsApart := by
  obtain ⟨hnodup, rfl⟩ := ofDefinitions_eq_ok_iff.1 h
  constructor
  · intro apart d hd d' hd' t ht t' ht' hid
    by_contra hne
    -- the empty series of the two schemas would share its key
    have target := (target?_encodeKey hnodup hd []).trans ht
    have target' := (target?_encodeKey hnodup hd' []).trans ht'
    exact apart _ _ t t' target target' hne
      ((downsampleKey_eq_iff target target').2 ⟨hid, rfl⟩)
  · exact fun apart key key' t t' ht ht' hne hkey => hne (apart.target_eq ht ht' hkey)

end Schema.Registry

namespace Bootstrap

open Identity Schema.Registry

/-- Where different targets have different ids, all records for a key are of one target. -/
lemma exists_target_of_deliveredFor {σ : Type} [ColumnStore σ] {schemas : Schema.Registry}
    {store : σ} {shard : Shard} {first last : Int} {key : Key} (h : schemas.TargetsApart)
    (hne : deliveredFor schemas store shard first last key ≠ []) :
    ∃ t, ∀ r ∈ deliveredFor schemas store shard first last key,
      schemas.target? r.key = some t := by
  have projected : ∀ r ∈ deliveredFor schemas store shard first last key,
      schemas.downsampleKey r.key = some key :=
    fun r hr => of_decide_eq_true (List.mem_filter.1 hr).2
  have target : ∀ r ∈ deliveredFor schemas store shard first last key,
      ∃ t, schemas.target? r.key = some t := by
    intro r hr
    have hkey := projected r hr
    rw [downsampleKey_eq_map] at hkey
    obtain ⟨t, ht, -⟩ := Option.map_eq_some_iff.1 hkey
    exact ⟨t, ht⟩
  obtain ⟨r, hr⟩ := List.exists_mem_of_ne_nil _ hne
  obtain ⟨t, ht⟩ := target r hr
  refine ⟨t, fun r' hr' => ?_⟩
  obtain ⟨t', ht'⟩ := target r' hr'
  rw [ht', h.target_eq ht ht' ((projected r hr).trans (projected r' hr').symm)]

/-- **Series of different targets.**  Let a list of definitions be accepted.  Two series that have
targets get one key if the ids of their targets are the same, and what follows the ids in their keys
is.  So series of different targets have different keys exactly if no two different targets of the
list share an id.

If none do, a refresh makes no entry of series of two targets: it leaves the entry of a key as it
was, or there is one target for all the records that it has found for the key, and the entry has the
least window that holds the former one and those of these records. -/
theorem targets_of_refresh {defs : List Schema.Definition} {schemas : Schema.Registry}
    (h : ofDefinitions defs = .ok schemas) :
    (∀ key key' t t', schemas.target? key = some t → schemas.target? key' = some t' →
      (schemas.downsampleKey key = schemas.downsampleKey key' ↔
        Schema.idOf t = Schema.idOf t' ∧ key.drop 2 = key'.drop 2)) ∧
    ((∀ key key' t t', schemas.target? key = some t → schemas.target? key' = some t' → t ≠ t' →
      schemas.downsampleKey key ≠ schemas.downsampleKey key') ↔ schemas.TargetsApart) ∧
    (schemas.TargetsApart → ∀ {σ : Type} [ColumnStore σ] (settings : Settings) (store : σ)
      (shard : Shard) (first last : Int) (parallelism : Option Nat) (schedule : List Choice)
      {ρ : Type} [Resolver ρ] (w w' : World ρ AnyIndex) (n : Nat),
      (Strategy.refresh first last parallelism).run settings schemas store shard schedule w =
        (.ok n, w') →
      ∀ key, w'.index.committed.get? key = w.index.current? key ∨
        ∃ t e, w'.index.committed.get? key = some e ∧
          (∀ r ∈ deliveredFor schemas store shard first last key,
            schemas.target? r.key = some t) ∧
          e.Spans (w.index.current? key) (deliveredFor schemas store shard first last key)) := by
  refine ⟨fun key key' t t' ht ht' => downsampleKey_eq_iff ht ht', forall_ne_iff_targetsApart h,
    ?_⟩
  intro apart σ _ settings store shard first last parallelism schedule ρ _ w w' n hrun key
  obtain ⟨-, tales, j, tail, course⟩ := exists_course_of_refresh hrun
  obtain ⟨hnone, hsome⟩ := course.entry_of_refresh key
  by_cases hfound : deliveredFor schemas store shard first last key = []
  · exact Or.inl (hnone hfound)
  · obtain ⟨t, ht⟩ := exists_target_of_deliveredFor apart hfound
    obtain ⟨e, he, spans, -⟩ := hsome hfound
    exact Or.inr ⟨t, e, he, ht, spans⟩

/-- Two schemas, and a series of the same name in each of them. -/
def twoTargets (target target' : String) : List Schema.Definition × RecordLog :=
  ([⟨"load", some target⟩, ⟨"read", some target'⟩],
    ⟨[⟨⟨"metrics", 0⟩, ⟨Schema.encodeKey "load" [7], 10, 20⟩, 0⟩,
      ⟨⟨"metrics", 0⟩, ⟨Schema.encodeKey "read" [7], 80, 90⟩, 0⟩]⟩)

/-- A refresh of an empty index from both series. -/
def twoTargetsCall (target target' : String) : Except Failure Nat × World Keyed AnyIndex :=
  (Strategy.refresh 0 0 (some 1)).run ⟨1, 0⟩ ⟨(twoTargets target target').1⟩
    (twoTargets target target').2 ⟨"metrics", 0⟩ [] ⟨Keyed.fresh, .volatile {}, []⟩

/-- Targets with different ids are kept apart: the entry of the first one has its window. -/
theorem targets_of_refresh_apart :
    let schemas : Schema.Registry := ⟨(twoTargets "ds-load-1h" "ds-read-1h").1⟩
    let call := twoTargetsCall "ds-load-1h" "ds-read-1h"
    ofDefinitions (twoTargets "ds-load-1h" "ds-read-1h").1 = .ok schemas ∧
      schemas.TargetsApart ∧ call.1 = .ok 2 ∧
      ∃ e, call.2.index.committed.get? (Schema.encodeKey "ds-load-1h" [7]) = some e ∧
        e.startTime = 10 ∧ e.endTime = 20 := by
  intro schemas call
  have accepted : ofDefinitions (twoTargets "ds-load-1h" "ds-read-1h").1 = .ok schemas := by
    decide +kernel
  have apart : schemas.TargetsApart := by
    show ∀ d ∈ (twoTargets "ds-load-1h" "ds-read-1h").1, ∀ d' ∈ _, ∀ t ∈ d.downsample, _
    decide +kernel
  have refreshed : call.1 = .ok 2 := by decide +kernel
  have found : deliveredFor schemas (twoTargets "ds-load-1h" "ds-read-1h").2 ⟨"metrics", 0⟩ 0 0
      (Schema.encodeKey "ds-load-1h" [7]) = [⟨Schema.encodeKey "load" [7], 10, 20⟩] := by
    decide +kernel
  have absent : call.2.index.committed.get? (Schema.encodeKey "ds-load-1h" [7]) ≠ none := by
    decide +kernel
  obtain ⟨-, -, entries⟩ := targets_of_refresh accepted
  rcases entries apart _ _ _ _ _ _ _ _ _ 2 (Prod.ext refreshed rfl)
    (Schema.encodeKey "ds-load-1h" [7]) with hsame | ⟨t, e, he, -, spans⟩
  · exact absurd hsame absent
  · rw [found] at spans
    refine ⟨accepted, apart, refreshed, e, he, ?_, ?_⟩
    · obtain ⟨b, hb, -⟩ | ⟨r, hr, hstart⟩ := spans.start.1
      · cases hb
      · rw [← hstart, List.mem_singleton.1 hr]
    · obtain ⟨b, hb, -⟩ | ⟨r, hr, hend⟩ := spans.stop.1
      · cases hb
      · rw [← hend, List.mem_singleton.1 hr]

/-- Targets that share an id are accepted, and a series of the one is merged with that of the other:
there is one entry for both, under one id, with the least window that holds the two windows. -/
theorem targets_merged :
    let schemas : Schema.Registry := ⟨(twoTargets "ds-load-1h" "ds-read-hour").1⟩
    let call := twoTargetsCall "ds-load-1h" "ds-read-hour"
    ofDefinitions (twoTargets "ds-load-1h" "ds-read-hour").1 = .ok schemas ∧
      schemas.target? (Schema.encodeKey "load" [7]) = some "ds-load-1h" ∧
      schemas.target? (Schema.encodeKey "read" [7]) = some "ds-read-hour" ∧
      schemas.downsampleKey (Schema.encodeKey "load" [7]) =
        schemas.downsampleKey (Schema.encodeKey "read" [7]) ∧
      call.1 = .ok 2 ∧
      call.2.index.committed.rows = [(Schema.encodeKey "ds-load-1h" [7], ⟨0, 10, 90⟩)] :=
  ⟨by decide +kernel, by decide +kernel, by decide +kernel, by decide +kernel, by decide +kernel,
    by decide +kernel⟩

end Bootstrap

end ShardIndex
