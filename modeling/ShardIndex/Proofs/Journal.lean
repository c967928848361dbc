import ShardIndex.Bootstrap.World
import Mathlib.Data.List.Basic
import Mathlib.Data.List.Perm.Subperm

/-!
# Journals

What a call has done stands in its journal, so a law about calls is a law about lists of actions.
This file has the views of a journal that such laws speak of, and the fact on which all of them
rest: the world that a call leaves comes from the one it began with by the actions in between,
whichever part of the call they belong to (`World.Evolves`).
-/

namespace ShardIndex

open Identity

/-- The record from which the row of a table was made. -/
def Record.ofRow (row : Key × Entry) : Record := ⟨row.1, row.2.startTime, row.2.endTime⟩

@[simp] lemma Record.ofRow_entry (r : Record) (n : PartId) : ofRow (r.key, r.entry n) = r := rfl

/-- The records of some rows have the keys of the rows. -/
lemma Record.map_key_map_ofRow (rows : List (Key × Entry)) :
    (rows.map ofRow).map Record.key = rows.map Prod.fst :=
  List.map_map

namespace Bootstrap

/-! ## Views of an action -/

namespace Action

/-- The row that may be written once the resolver has given an id. -/
def grant? : Action → Option (Key × Entry)
  | .consulted r (.id n) => some (r.key, r.entry n)
  | _ => none

/-- The row that the index was asked to write. -/
def write? : Action → Option (Key × Entry)
  | .requested (.write _ key e) _ => some (key, e)
  | _ => none

/-- The record that the resolver was asked about. -/
def consulted? : Action → Option Record
  | .consulted r _ => some r
  | _ => none

/-- Whether the action is one that did not end well. -/
def Fails : Action → Prop
  | .consulted _ answer => ∀ n, answer ≠ .id n
  | .requested _ outcome => outcome ≠ none
  | .announced _ => False

/-- Whether the action belongs to the writing of records in some mode. -/
def Writes (mode : WriteMode) : Action → Prop
  | .consulted _ _ => True
  | .requested (.write m _ _) _ => m = mode
  | _ => False

end Action

/-! ## Views of a journal -/

/-- The rows that may be written by what the resolver has answered. -/
def granted (j : List Action) : List (Key × Entry) := j.filterMap Action.grant?

/-- The rows that the index was asked to write. -/
def written (j : List Action) : List (Key × Entry) := j.filterMap Action.write?

/-- The records that the resolver was asked about. -/
def consulted (j : List Action) : List Record := j.filterMap Action.consulted?

@[simp] lemma granted_append (j j' : List Action) : granted (j ++ j') = granted j ++ granted j' :=
  List.filterMap_append

@[simp] lemma written_append (j j' : List Action) : written (j ++ j') = written j ++ written j' :=
  List.filterMap_append

@[simp] lemma consulted_append (j j' : List Action) :
    consulted (j ++ j') = consulted j ++ consulted j' :=
  List.filterMap_append

lemma mem_granted_iff {j : List Action} {row : Key × Entry} :
    row ∈ granted j ↔ ∃ r n, .consulted r (.id n) ∈ j ∧ row = (r.key, r.entry n) := by
  rw [granted, List.mem_filterMap]
  constructor
  · rintro ⟨a, ha, hrow⟩
    unfold Action.grant? at hrow
    split at hrow
    · rename_i r n
      exact ⟨r, n, ha, (Option.some.inj hrow).symm⟩
    · cases hrow
  · rintro ⟨r, n, ha, rfl⟩
    exact ⟨_, ha, rfl⟩

lemma mem_consulted_iff {j : List Action} {r : Record} :
    r ∈ consulted j ↔ ∃ answer, .consulted r answer ∈ j := by
  rw [consulted, List.mem_filterMap]
  constructor
  · rintro ⟨a, ha, hr⟩
    unfold Action.consulted? at hr
    split at hr
    · rename_i r' answer
      rw [← Option.some.inj hr]
      exact ⟨answer, ha⟩
    · cases hr
  · rintro ⟨answer, ha⟩
    exact ⟨_, ha, rfl⟩

/-- Every write was preceded by an answer that granted it, and no answer grants two. -/
def Covered (j : List Action) : Prop := ∀ p, p <+: j → (written p).Subperm (granted p)

lemma covered_nil : Covered [] := by
  intro p hp
  rw [List.prefix_nil.1 hp]
  exact List.Subperm.refl _

/-- A longer journal is covered if it is so as a whole and up to its last action. -/
lemma Covered.concat {j : List Action} (h : Covered j) (a : Action)
    (ha : (written (j ++ [a])).Subperm (granted (j ++ [a]))) : Covered (j ++ [a]) := by
  intro p hp
  rcases List.prefix_concat_iff.1 hp with rfl | hp
  · exact ha
  · exact h p hp

lemma Covered.append {j j' : List Action} (h : Covered j) (h' : Covered j') :
    Covered (j ++ j') := by
  intro p hp
  -- an initial part ends in the first journal or goes on into the second
  rcases List.prefix_or_prefix_of_prefix hp (List.prefix_append j j') with hpj | ⟨q, rfl⟩
  · exact h p hpj
  · have hq : q <+: j' := (List.prefix_append_right_inj j).1 hp
    rw [written_append, granted_append]
    exact (h j (List.prefix_refl j)).append (h' q hq)

/-! ## How a world changes -/

namespace World

variable {ρ ι : Type} [Resolver ρ] [Index ι]

/-- What a world becomes when something happens. -/
inductive Acts (w : World ρ ι) : Action → World ρ ι → Prop
  /-- The resolver is asked about a record. -/
  | consult (r : Record) : Acts w (.consulted r (w.consult r).1) (w.consult r).2
  /-- The index is asked for something. -/
  | request (r : Request) : Acts w (.requested r (w.request r).1) (w.request r).2
  /-- The index is told to announce an event. -/
  | announce (e : Event) : Acts w (.announced e) (w.announce e)

/-- The worlds that a world can become, with the actions on the way. -/
inductive Evolves (w : World ρ ι) : List Action → World ρ ι → Prop
  /-- Nothing has happened. -/
  | refl : Evolves w [] w
  /-- One thing more has happened. -/
  | concat {j : List Action} {a : Action} {w' w'' : World ρ ι} :
      Evolves w j w' → Acts w' a w'' → Evolves w (j ++ [a]) w''

namespace Evolves

variable {w w' w'' : World ρ ι} {j j' : List Action}

lemma consult (h : w.Evolves j w') (r : Record) :
    w.Evolves (j ++ [.consulted r (w'.consult r).1]) (w'.consult r).2 :=
  h.concat (.consult r)

lemma request (h : w.Evolves j w') (r : Request) :
    w.Evolves (j ++ [.requested r (w'.request r).1]) (w'.request r).2 :=
  h.concat (.request r)

lemma announce (h : w.Evolves j w') (e : Event) :
    w.Evolves (j ++ [.announced e]) (w'.announce e) :=
  h.concat (.announce e)

/-- What happens on the way is what is entered in the journal. -/
lemma journal (h : w.Evolves j w') : w'.journal = w.journal ++ j := by
  induction h with
  | refl => rw [List.append_nil]
  | concat _ hact ih =>
    rw [← List.append_assoc, ← ih]
    cases hact <;> rfl

lemma trans (h : w.Evolves j w') (h' : w'.Evolves j' w'') : w.Evolves (j ++ j') w'' := by
  induction h' with
  | refl => rwa [List.append_nil]
  | concat _ hact ih => rw [← List.append_assoc]; exact ih.concat hact

/-- What happens in two parts passes through a world in between. -/
lemma exists_between (h : w.Evolves (j ++ j') w'') :
    ∃ w', w.Evolves j w' ∧ w'.Evolves j' w'' := by
  generalize hl : j ++ j' = l at h
  induction h generalizing j' with
  | refl =>
    obtain ⟨rfl, rfl⟩ := List.append_eq_nil_iff.1 hl
    exact ⟨w, refl, refl⟩
  | concat hbefore hact ih =>
    -- worlds grow at the end of the journal, so it is the second part that is taken apart
    rcases List.eq_nil_or_concat j' with rfl | ⟨l', a, rfl⟩
    · rw [List.append_nil] at hl
      subst hl
      exact ⟨_, hbefore.concat hact, refl⟩
    · rw [List.concat_eq_append, ← List.append_assoc] at hl
      obtain ⟨hl, ha⟩ := List.append_inj' hl rfl
      obtain ⟨w₁, h₁, h₂⟩ := ih hl
      rw [List.concat_eq_append, ha]
      exact ⟨w₁, h₁, h₂.concat hact⟩

lemma eq_of_nil (h : w.Evolves [] w') : w' = w := by
  generalize hl : [] = l at h
  cases h with
  | refl => rfl
  | concat => cases (List.append_eq_nil_iff.1 hl.symm).2

/-- What happens first leads to a world from which the rest happens. -/
lemma exists_of_cons {a : Action} (h : w.Evolves (a :: j) w'') :
    ∃ w', w.Acts a w' ∧ w'.Evolves j w'' := by
  obtain ⟨w', hfirst, hrest⟩ := exists_between (j := [a]) h
  refine ⟨w', ?_, hrest⟩
  generalize hl : [a] = l at hfirst
  cases hfirst with
  | refl => cases hl
  | @concat j' a' w₁ _ hbefore hact =>
    rw [← List.nil_append [a]] at hl
    obtain ⟨rfl, ha⟩ := List.append_inj' hl rfl
    obtain rfl : a = a' := List.singleton_inj.1 ha
    obtain rfl := hbefore.eq_of_nil
    exact hact

end Evolves

/-- What has happened since a world was as another. -/
def since (w' w : World ρ ι) : List Action := w'.journal.drop w.journal.length

lemma Evolves.since_eq {w w' : World ρ ι} {j : List Action} (h : w.Evolves j w') :
    w'.since w = j := by
  rw [since, h.journal, List.drop_left]

/-- A question is answered as the resolver has it. -/
lemma Acts.resolve {r : Record} {answer : Answer} {w w' : World ρ ι}
    (h : w.Acts (.consulted r answer) w') :
    Resolver.resolve w.resolver r = (answer, w'.resolver) := by
  cases h with
  | consult => rfl

/-- A request is carried out as the index has it. -/
lemma Acts.perform {r : Request} {o : Option Failure} {w w' : World ρ ι}
    (h : w.Acts (.requested r o) w') : Index.perform w.index r = (o, w'.index) := by
  cases h with
  | request => rfl

end World

end Bootstrap

end ShardIndex
