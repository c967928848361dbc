import ShardIndex.Lifecycle
import Mathlib.Data.List.Basic
import Mathlib.Data.List.DropRight

/-!
# What subscribers are told

Events are announced, subscribers come, ask, and leave, and the announcer goes, all of it in any
order.  Of the events announced since it came a subscriber has passed some and has the others ahead
of it.  What it was told goes through those that it has passed, each event in its place and each
lag for as many as it leaves out (`Announcer.Tells`); what it can still be told are the last of
those ahead, as many as the announcer keeps.

The announcer knows only the events that it keeps, and counts those that it has let go.
`Announcer.IsSound` says that the two make up all that was sent, and `Announcer.Follows` says where
a subscriber stands in it.  Every turn keeps both, so they hold after every history (`delivery`).
-/

namespace ShardIndex.Announcer

/-! ## Histories -/

/-- One thing that happens to an announcer. -/
inductive Turn
  | announce (e : Event)
  | subscribe
  | unsubscribe (subscriber : Nat)
  | receive (subscriber : Nat)
  | close
deriving DecidableEq

/-- The announcer after a turn. -/
def after (a : Announcer) : Turn → Announcer
  | .announce e => a.announce e
  | .subscribe => a.subscribe.2
  | .unsubscribe subscriber => a.unsubscribe subscriber
  | .receive subscriber => (a.receive subscriber).2
  | .close => a.close

/-- The announcer after some turns. -/
def run (a : Announcer) (turns : List Turn) : Announcer := turns.foldl after a

/-- The event that a turn announces. -/
def Turn.event? : Turn → Option Event
  | .announce e => some e
  | _ => none

/-- The events that some turns announce. -/
def announced (turns : List Turn) : List Event := turns.filterMap Turn.event?

/-- What a subscriber is told by a turn. -/
def toldBy (a : Announcer) (subscriber : Nat) (turn : Turn) : List Reception :=
  if turn = .receive subscriber then [(a.receive subscriber).1] else []

/-- What a subscriber is told over some turns. -/
def told (a : Announcer) (subscriber : Nat) : List Turn → List Reception
  | [] => []
  | turn :: rest => a.toldBy subscriber turn ++ (a.after turn).told subscriber rest

lemma run_concat (a : Announcer) (turns : List Turn) (turn : Turn) :
    a.run (turns ++ [turn]) = (a.run turns).after turn := by
  rw [run, List.foldl_append]
  rfl

lemma told_concat (a : Announcer) (subscriber : Nat) (turns : List Turn) (turn : Turn) :
    a.told subscriber (turns ++ [turn]) =
      a.told subscriber turns ++ (a.run turns).toldBy subscriber turn := by
  induction turns generalizing a with
  | nil => exact List.append_nil _
  | cons first rest ih =>
    rw [List.cons_append, told, told, ih, List.append_assoc]
    rfl

lemma announced_append (turns turns' : List Turn) :
    announced (turns ++ turns') = announced turns ++ announced turns' :=
  List.filterMap_append

/-! ## What a subscriber makes of it -/

/-- The events among what a subscriber was told. -/
def events (heard : List Reception) : List Event :=
  heard.filterMap fun
    | .event e => some e
    | _ => none

/-- How many events a subscriber was told that it has missed. -/
def missed : List Reception → Nat
  | [] => 0
  | .lagged n :: rest => n + missed rest
  | _ :: rest => missed rest

lemma events_append (heard heard' : List Reception) :
    events (heard ++ heard') = events heard ++ events heard' :=
  List.filterMap_append

lemma missed_append (heard heard' : List Reception) :
    missed (heard ++ heard') = missed heard + missed heard' := by
  induction heard with
  | nil => exact (Nat.zero_add _).symm
  | cons r rest ih =>
    cases r with
    | lagged n => exact (congrArg (n + ·) ih).trans (Nat.add_assoc ..).symm
    | event | empty | closed => exact ih

/-- What a subscriber was told goes through some events: it got each of them in its place, but for
those that a lag leaves out. -/
inductive Tells : List Reception → List Event → Prop
  | start : Tells [] []
  | event {heard : List Reception} {l : List Event} (e : Event) :
      Tells heard l → Tells (heard ++ [.event e]) (l ++ [e])
  | lagged {heard : List Reception} {l : List Event} (skipped : List Event) :
      Tells heard l → Tells (heard ++ [.lagged skipped.length]) (l ++ skipped)
  | empty {heard : List Reception} {l : List Event} : Tells heard l → Tells (heard ++ [.empty]) l
  | closed {heard : List Reception} {l : List Event} : Tells heard l → Tells (heard ++ [.closed]) l

namespace Tells

variable {heard : List Reception} {l : List Event}

lemma events_sublist (h : Tells heard l) : (events heard).Sublist l := by
  induction h with
  | start => exact List.Sublist.refl _
  | event e _ ih =>
    rw [events_append]
    exact ih.append (List.Sublist.refl [e])
  | lagged skipped _ ih =>
    rw [events_append]
    exact ih.append (List.nil_sublist skipped)
  | empty _ ih =>
    rw [events_append]
    exact (List.append_nil (events _)).symm ▸ ih
  | closed _ ih =>
    rw [events_append]
    exact (List.append_nil (events _)).symm ▸ ih

/-- Every event was told or missed. -/
lemma length_eq (h : Tells heard l) : (events heard).length + missed heard = l.length := by
  induction h with
  | start => rfl
  | event e _ ih =>
    rw [events_append, missed_append, List.length_append, List.length_append, ← ih]
    exact Nat.add_right_comm ..
  | lagged skipped _ ih =>
    rw [events_append, missed_append, List.length_append, List.length_append, ← ih]
    exact (Nat.add_assoc ..).symm
  | empty _ ih =>
    rw [events_append, missed_append, List.length_append]
    exact ih
  | closed _ ih =>
    rw [events_append, missed_append, List.length_append]
    exact ih

end Tells

/-! ## Subscribers by name -/

section Names

variable {subscribers : List (Nat × Nat)} {n m : Nat}

lemma lookup_filter_ne (h : n ≠ m) :
    (subscribers.filter fun s => s.1 ≠ m).lookup n = subscribers.lookup n := by
  induction subscribers with
  | nil => rfl
  | cons s rest ih =>
    by_cases hs : s.1 = m
    · have hn : (n == s.1) = false := beq_eq_false_iff_ne.2 (hs ▸ h)
      rw [List.filter_cons_of_neg (by simpa using hs), List.lookup_cons, hn, ih]
    · rw [List.filter_cons_of_pos (by simpa using hs), List.lookup_cons, List.lookup_cons, ih]

lemma lookup_moved (position : Nat) :
    (subscribers.map fun s => if s.1 = m then (s.1, position) else s).lookup n =
      if n = m then (subscribers.lookup n).map fun _ => position else subscribers.lookup n := by
  induction subscribers with
  | nil => simp
  | cons s rest ih =>
    obtain ⟨name, next⟩ := s
    have hname : (if name = m then (name, position) else (name, next)) =
        (name, if name = m then position else next) := by split <;> rfl
    rw [List.map_cons, hname, List.lookup_cons, List.lookup_cons, ih]
    by_cases hn : n = name
    · rw [beq_iff_eq.2 hn, ← hn]
      dsimp only
      split <;> rfl
    · rw [beq_eq_false_iff_ne.2 hn]

lemma lookup_eq_none_of_lt (h : ∀ s ∈ subscribers, s.1 < n) : subscribers.lookup n = none := by
  induction subscribers with
  | nil => rfl
  | cons s rest ih =>
    obtain ⟨hs, hrest⟩ := List.forall_mem_cons.1 h
    rw [List.lookup_cons, beq_eq_false_iff_ne.2 (Nat.ne_of_gt hs)]
    exact ih hrest

end Names

/-! ## What a turn leaves as it was -/

section Frame

variable {a : Announcer} {n : Nat}

/-- To receive moves one who receives, if anything. -/
lemma receive_cases : (a.receive n).2 = a ∨ ∃ position, (a.receive n).2 = a.moveTo n position := by
  rw [receive]
  split
  · exact .inl rfl
  · split
    · exact .inr ⟨_, rfl⟩
    · split
      · exact .inr ⟨_, rfl⟩
      · exact .inl rfl

lemma capacity_after (a : Announcer) (turn : Turn) : (a.after turn).capacity = a.capacity := by
  cases turn with
  | announce e =>
    rw [after, announce]
    split <;> rfl
  | receive m =>
    obtain heq | ⟨position, heq⟩ := receive_cases (a := a) (n := m) <;> rw [after, heq]
    rfl
  | subscribe | unsubscribe | close => rfl

lemma closed_after (a : Announcer) (turn : Turn) :
    (a.after turn).closed = (a.closed || decide (turn = .close)) := by
  cases turn with
  | announce e =>
    rw [after, announce]
    split <;> exact (Bool.or_false _).symm
  | receive m =>
    obtain heq | ⟨position, heq⟩ := receive_cases (a := a) (n := m) <;>
      rw [after, heq] <;> exact (Bool.or_false _).symm
  | subscribe | unsubscribe => exact (Bool.or_false _).symm
  | close => exact (Bool.or_true _).symm

lemma latest_after (a : Announcer) (turn : Turn) :
    (a.after turn).latest = turn.event?.or a.latest := by
  cases turn with
  | announce e =>
    rw [after, announce]
    split <;> rfl
  | receive m =>
    obtain heq | ⟨position, heq⟩ := receive_cases (a := a) (n := m) <;> rw [after, heq] <;> rfl
  | subscribe | unsubscribe | close => rfl

/-- Only by its own leaving and receiving does a subscriber move. -/
lemma lookup_after {turn : Turn} {position : Nat} (hleave : turn ≠ .unsubscribe n)
    (hreceive : turn ≠ .receive n) (h : a.subscribers.lookup n = some position) :
    (a.after turn).subscribers.lookup n = some position := by
  cases turn with
  | announce e =>
    rw [after, announce]
    split <;> exact h
  | subscribe =>
    change (a.subscribers ++ _).lookup n = _
    rw [List.lookup_append, h]
    rfl
  | unsubscribe m =>
    have hne : n ≠ m := fun hn => hleave (hn ▸ rfl)
    exact (lookup_filter_ne hne).trans h
  | receive m =>
    have hne : n ≠ m := fun hn => hreceive (hn ▸ rfl)
    obtain heq | ⟨next, heq⟩ := receive_cases (a := a) (n := m)
    · rw [after, heq, h]
    · rw [after, heq, moveTo, lookup_moved, if_neg hne, h]
  | close => exact h

lemma capacity_run (a : Announcer) (turns : List Turn) : (a.run turns).capacity = a.capacity := by
  induction turns using List.reverseRecOn with
  | nil => rfl
  | append_singleton turns turn ih => rw [run_concat, capacity_after, ih]

lemma closed_run (a : Announcer) (turns : List Turn) :
    (a.run turns).closed = (a.closed || decide (.close ∈ turns)) := by
  induction turns using List.reverseRecOn with
  | nil => exact (Bool.or_false _).symm
  | append_singleton turns turn ih =>
    rw [run_concat, closed_after, ih, Bool.or_assoc]
    congr 1
    simp [Bool.decide_or, eq_comm]

/-- The latest event is the last one announced, whether anyone was there or not. -/
lemma latest_run (a : Announcer) (turns : List Turn) :
    (a.run turns).latest = (announced turns).getLast?.or a.latest := by
  induction turns using List.reverseRecOn with
  | nil => rfl
  | append_singleton turns turn ih =>
    rw [run_concat, latest_after, ih, announced_append, List.getLast?_append, Option.or_assoc]
    cases turn <;> rfl

end Frame

/-! ## What is kept of what was sent -/

/-- An announcer has sent these events, and keeps the last of them. -/
structure IsSound (a : Announcer) (sent : List Event) : Prop where
  capacity_pos : 0 < a.capacity
  kept_eq : a.kept = sent.drop a.dropped
  dropped_eq : a.dropped = sent.length - a.capacity
  named : ∀ s ∈ a.subscribers, s.1 < a.nextSubscriber

/-- The events that a turn sends: without subscribers an event is announced, but not sent. -/
def sentBy (a : Announcer) (turn : Turn) : List Event :=
  if a.subscribers.isEmpty then [] else turn.event?.toList

variable {a : Announcer} {n : Nat} {sent : List Event} {turn : Turn}

namespace IsSound

lemma ofCapacity (c : Nat) : (ofCapacity c).IsSound [] where
  capacity_pos := Nat.pos_of_isPowerOfTwo (Nat.isPowerOfTwo_nextPowerOfTwo _)
  kept_eq := rfl
  dropped_eq := (Nat.zero_sub _).symm
  named := List.forall_mem_nil _

lemma position_eq (h : a.IsSound sent) : a.position = sent.length := by
  rw [position, h.kept_eq, List.length_drop, h.dropped_eq]
  omega

lemma length_kept (h : a.IsSound sent) : a.kept.length = min sent.length a.capacity := by
  rw [h.kept_eq, List.length_drop, h.dropped_eq]
  omega

lemma announce (h : a.IsSound sent) (e : Event) :
    (a.announce e).IsSound (sent ++ a.sentBy (.announce e)) := by
  by_cases hs : a.subscribers.isEmpty
  · rw [Announcer.announce, if_pos hs, sentBy, if_pos hs, List.append_nil]
    exact ⟨h.capacity_pos, h.kept_eq, h.dropped_eq, h.named⟩
  · rw [Announcer.announce, if_neg hs, sentBy, if_neg hs]
    have hcapacity := h.capacity_pos
    have hlength := h.length_kept
    have hdropped := h.dropped_eq
    refine ⟨h.capacity_pos, ?_, ?_, h.named⟩
    · change (a.kept ++ [e]).drop (a.kept.length + 1 - a.capacity) =
        (sent ++ [e]).drop (a.dropped + (a.kept.length + 1 - a.capacity))
      rw [List.drop_append_of_le_length (by omega), ← List.drop_drop,
        List.drop_append_of_le_length (by omega), ← h.kept_eq,
        List.drop_append_of_le_length (by omega)]
    · change a.dropped + (a.kept.length + 1 - a.capacity) = (sent ++ [e]).length - a.capacity
      rw [List.length_append, List.length_singleton]
      omega

lemma moveTo (h : a.IsSound sent) (position : Nat) : (a.moveTo n position).IsSound sent where
  capacity_pos := h.capacity_pos
  kept_eq := h.kept_eq
  dropped_eq := h.dropped_eq
  named s hs := by
    obtain ⟨s', hs', rfl⟩ := List.mem_map.1 hs
    split
    · exact h.named s' hs'
    · exact h.named s' hs'

lemma receive (h : a.IsSound sent) (n : Nat) : (a.receive n).2.IsSound sent := by
  obtain heq | ⟨position, heq⟩ := receive_cases (a := a) (n := n)
  · exact heq.symm ▸ h
  · exact heq.symm ▸ h.moveTo position

/-- What is sent is added to what was sent, and no turn does anything else to it. -/
lemma after (h : a.IsSound sent) (turn : Turn) :
    (a.after turn).IsSound (sent ++ a.sentBy turn) := by
  have hquiet (hturn : turn.event? = none) : sent ++ a.sentBy turn = sent := by
    simp [sentBy, hturn]
  cases turn with
  | announce e => exact h.announce e
  | subscribe =>
    rw [hquiet rfl]
    refine ⟨h.capacity_pos, h.kept_eq, h.dropped_eq, fun s hs => ?_⟩
    rcases List.mem_append.1 hs with hs | hs
    · exact Nat.lt_succ_of_lt (h.named s hs)
    · rw [List.mem_singleton.1 hs]
      exact Nat.lt_succ_self _
  | unsubscribe m =>
    rw [hquiet rfl]
    exact ⟨h.capacity_pos, h.kept_eq, h.dropped_eq,
      fun s hs => h.named s (List.mem_filter.1 hs).1⟩
  | receive m =>
    rw [hquiet rfl]
    exact h.receive m
  | close =>
    rw [hquiet rfl]
    exact ⟨h.capacity_pos, h.kept_eq, h.dropped_eq, h.named⟩

end IsSound

/-! ## Where a subscriber stands -/

/-- A subscriber came after some of the events that were sent; of those since it has passed some,
as it was told, and has the others ahead of it. -/
structure Follows (a : Announcer) (n : Nat) (before passed ahead : List Event) : Prop where
  sound : a.IsSound (before ++ (passed ++ ahead))
  lookup_eq : a.subscribers.lookup n = some (before.length + passed.length)

namespace Follows

variable {before passed ahead : List Event}

lemma dropped_eq (h : a.Follows n before passed ahead) :
    a.dropped = before.length + (passed.length + ahead.length) - a.capacity := by
  rw [h.sound.dropped_eq, List.length_append, List.length_append]

lemma not_isEmpty (h : a.Follows n before passed ahead) : ¬ a.subscribers.isEmpty := by
  intro hempty
  have hlookup := h.lookup_eq
  rw [List.isEmpty_iff.1 hempty] at hlookup
  exact absurd hlookup (by simp)

/-- The subscriber goes on past some of the events ahead. -/
lemma moveTo {skipped : List Event} (h : a.Follows n before passed (skipped ++ ahead)) :
    (a.moveTo n (before.length + (passed ++ skipped).length)).Follows n before
      (passed ++ skipped) ahead where
  sound := by
    rw [List.append_assoc]
    exact h.sound.moveTo _
  lookup_eq := by
    rw [Announcer.moveTo, lookup_moved, if_pos rfl, h.lookup_eq]
    rfl

/-- With more events ahead than are kept, those kept are the last of them. -/
lemma exists_split (hlt : a.capacity < ahead.length) :
    ∃ skipped rest, ahead = skipped ++ rest ∧ skipped.length = ahead.length - a.capacity ∧
      rest.length = a.capacity := by
  refine ⟨ahead.take (ahead.length - a.capacity), ahead.drop (ahead.length - a.capacity),
    (List.take_append_drop _ _).symm, ?_, ?_⟩
  · rw [List.length_take]
    omega
  · rw [List.length_drop]
    omega

/-- It is then told how many it has missed, and goes on from the oldest one kept. -/
lemma receive_of_append {skipped rest : List Event}
    (h : a.Follows n before passed (skipped ++ rest)) (hskipped : 0 < skipped.length)
    (hrest : rest.length = a.capacity) :
    a.receive n =
      (.lagged skipped.length, a.moveTo n (before.length + (passed ++ skipped).length)) := by
  have hdropped : a.dropped = before.length + (passed ++ skipped).length := by
    rw [h.dropped_eq, List.length_append, List.length_append]
    omega
  have hnext : before.length + passed.length < a.dropped := by
    rw [hdropped, List.length_append]
    omega
  have hmissed : a.dropped - (before.length + passed.length) = skipped.length := by
    rw [hdropped, List.length_append]
    omega
  rw [receive, h.lookup_eq]
  dsimp only
  rw [if_pos hnext, hmissed, hdropped]

/-- With no more events ahead than are kept, it is told the first of them. -/
lemma receive_of_cons {e : Event} {rest : List Event}
    (h : a.Follows n before passed (e :: rest)) (hle : (e :: rest).length ≤ a.capacity) :
    a.receive n = (.event e, a.moveTo n (before.length + (passed ++ [e]).length)) := by
  have hdropped := h.dropped_eq
  have hnext : ¬ before.length + passed.length < a.dropped := by omega
  have hkept : a.kept[before.length + passed.length - a.dropped]? = some e := by
    rw [h.sound.kept_eq, List.getElem?_drop, Nat.add_sub_cancel' (by omega),
      ← List.append_assoc, ← List.length_append, List.getElem?_append_right (Nat.le_refl _),
      Nat.sub_self]
    rfl
  rw [receive, h.lookup_eq]
  dsimp only
  rw [if_neg hnext, hkept]
  simp [Nat.add_assoc]

/-- With nothing ahead, it is told so. -/
lemma receive_of_nil (h : a.Follows n before passed []) :
    a.receive n = (if a.closed then .closed else .empty, a) := by
  have hdropped := h.dropped_eq
  have hcapacity := h.sound.capacity_pos
  rw [List.length_nil] at hdropped
  have hnext : ¬ before.length + passed.length < a.dropped := by omega
  have hkept : a.kept[before.length + passed.length - a.dropped]? = none := by
    rw [h.sound.kept_eq, List.getElem?_drop, List.getElem?_eq_none_iff, List.length_append,
      List.append_nil]
    omega
  rw [receive, h.lookup_eq]
  dsimp only
  rw [if_neg hnext, hkept]

/-- It is told of a lag exactly if there is more ahead than is kept. -/
lemma receive_eq_lagged_iff (h : a.Follows n before passed ahead) (m : Nat) :
    (a.receive n).1 = .lagged m ↔ a.capacity < ahead.length ∧ m = ahead.length - a.capacity := by
  by_cases hlt : a.capacity < ahead.length
  · obtain ⟨skipped, rest, rfl, hskipped, hrest⟩ := exists_split hlt
    rw [h.receive_of_append (by omega) hrest, Reception.lagged.injEq, and_iff_right hlt, ← hskipped,
      eq_comm]
  · rw [iff_false_right fun hm => hlt hm.1]
    cases ahead with
    | nil =>
      rw [h.receive_of_nil]
      dsimp only
      split <;> simp
    | cons e rest =>
      rw [h.receive_of_cons (Nat.le_of_not_lt hlt)]
      simp

/-- A turn takes the subscriber on past some of what is ahead of it and puts what is announced
behind that; what the subscriber is told of what it has passed goes on with it. -/
lemma after {heard : List Reception} (h : a.Follows n before passed ahead)
    (hheard : Tells heard passed) (hstay : turn ≠ .unsubscribe n) :
    ∃ passed' ahead', passed ++ ahead ++ turn.event?.toList = passed' ++ ahead' ∧
      (a.after turn).Follows n before passed' ahead' ∧
      Tells (heard ++ a.toldBy n turn) passed' := by
  by_cases hturn : turn = .receive n
  · subst hturn
    rw [toldBy, if_pos rfl, show (Turn.receive n).event?.toList = [] from rfl, List.append_nil,
      Announcer.after]
    by_cases hlt : a.capacity < ahead.length
    · obtain ⟨skipped, rest, rfl, hskipped, hrest⟩ := exists_split hlt
      rw [h.receive_of_append (by omega) hrest]
      exact ⟨passed ++ skipped, rest, (List.append_assoc _ _ _).symm, Follows.moveTo h,
        hheard.lagged skipped⟩
    · cases ahead with
      | nil =>
        refine ⟨passed, [], rfl, ?_, ?_⟩
        · rwa [h.receive_of_nil]
        · rw [h.receive_of_nil]
          dsimp only
          split
          · exact hheard.closed
          · exact hheard.empty
      | cons e rest =>
        have hreceive := h.receive_of_cons (Nat.le_of_not_lt hlt)
        refine ⟨passed ++ [e], rest, List.append_cons _ _ _, ?_, ?_⟩
        · rw [hreceive]
          exact Follows.moveTo h
        · rw [hreceive]
          exact hheard.event e
  · refine ⟨passed, ahead ++ turn.event?.toList, List.append_assoc _ _ _, ⟨?_, ?_⟩, ?_⟩
    · have hsound := h.sound.after turn
      rwa [sentBy, if_neg h.not_isEmpty, List.append_assoc, List.append_assoc] at hsound
    · exact lookup_after hstay hturn h.lookup_eq
    · rwa [toldBy, if_neg hturn, List.append_nil]

/-- A subscriber starts with nothing passed and nothing ahead. -/
lemma subscribe (h : a.IsSound sent) : a.subscribe.2.Follows a.subscribe.1 sent [] [] where
  sound := by
    have hsound := h.after .subscribe
    rwa [sentBy, show Turn.subscribe.event?.toList = [] from rfl, ite_self] at hsound
  lookup_eq := by
    change (a.subscribers ++ [(a.nextSubscriber, a.position)]).lookup a.nextSubscriber = _
    rw [List.lookup_append, lookup_eq_none_of_lt h.named, h.position_eq]
    simp

/-- What a turn keeps, a history keeps. -/
lemma run (h : a.Follows n before [] []) {turns : List Turn} (hstay : .unsubscribe n ∉ turns) :
    ∃ passed ahead, announced turns = passed ++ ahead ∧
      (a.run turns).Follows n before passed ahead ∧ Tells (a.told n turns) passed := by
  induction turns using List.reverseRecOn with
  | nil => exact ⟨[], [], rfl, h, .start⟩
  | append_singleton turns turn ih =>
    obtain ⟨hturns, hturn⟩ := not_or.1 (fun hmem => hstay (List.mem_append.2 hmem))
    obtain ⟨passed, ahead, hannounced, hfollows, hheard⟩ := ih hturns
    obtain ⟨passed', ahead', hsplit, hfollows', hheard'⟩ :=
      hfollows.after hheard fun heq => hturn (List.mem_singleton.2 heq.symm)
    refine ⟨passed', ahead', ?_, run_concat a turns turn ▸ hfollows',
      told_concat a n turns turn ▸ hheard'⟩
    rw [announced_append, hannounced, ← hsplit]
    cases turn <;> rfl

/-! ### To the end -/

/-- Asked often enough, one with no more ahead than is kept is told all of it. -/
lemma receiveUpTo (h : a.Follows n before passed ahead) (hle : ahead.length ≤ a.capacity)
    {k : Nat} (hk : ahead.length ≤ k) :
    (a.receiveUpTo n k).1 = ahead.map .event ∧
      (a.receiveUpTo n k).2.Follows n before (passed ++ ahead) [] ∧
      (a.receiveUpTo n k).2.closed = a.closed := by
  induction ahead generalizing a passed k with
  | nil =>
    rw [List.append_nil]
    have hend : a.receiveUpTo n k = ([], a) := by
      cases k with
      | zero => rfl
      | succ k =>
        rw [Announcer.receiveUpTo, h.receive_of_nil]
        cases a.closed <;> rfl
    rw [hend]
    exact ⟨rfl, h, rfl⟩
  | cons e rest ih =>
    obtain ⟨k, rfl⟩ := Nat.exists_eq_succ_of_ne_zero (Nat.ne_of_gt (Nat.lt_of_lt_of_le
      (Nat.succ_pos rest.length) hk))
    have hnext : (a.moveTo n (before.length + (passed ++ [e]).length)).Follows n before
        (passed ++ [e]) rest := Follows.moveTo h
    obtain ⟨hfirst, hlast, hclosed⟩ := ih hnext (Nat.le_of_succ_le hle) (Nat.le_of_succ_le_succ hk)
    rw [Announcer.receiveUpTo, h.receive_of_cons hle]
    dsimp only
    rw [hfirst, List.append_cons passed e rest]
    exact ⟨rfl, hlast, hclosed⟩

/-- All that a subscriber can get: one lag at most, and the last events as far as they are kept. -/
lemma drain (h : a.Follows n before passed ahead) :
    (a.drain n).1 =
        (if a.capacity < ahead.length then [.lagged (ahead.length - a.capacity)] else []) ++
          (ahead.rtake (min a.capacity ahead.length)).map .event ∧
      (a.drain n).2.Follows n before (passed ++ ahead) [] ∧
      (a.drain n).2.closed = a.closed := by
  have hkept : min ahead.length a.capacity ≤ a.kept.length := by
    rw [h.sound.length_kept, List.length_append, List.length_append]
    omega
  by_cases hlt : a.capacity < ahead.length
  · obtain ⟨skipped, rest, rfl, hskipped, hrest⟩ := exists_split hlt
    have hlast : (skipped ++ rest).rtake (min a.capacity (skipped ++ rest).length) = rest := by
      rw [List.rtake, min_eq_left (Nat.le_of_lt hlt), ← hskipped, List.drop_left]
    have hnext : (a.moveTo n (before.length + (passed ++ skipped).length)).Follows n before
        (passed ++ skipped) rest := Follows.moveTo h
    obtain ⟨hfirst, hend, hclosed⟩ :=
      hnext.receiveUpTo (Nat.le_of_eq hrest) (k := a.kept.length) (by omega)
    rw [Announcer.drain, Announcer.receiveUpTo, h.receive_of_append (by omega) hrest]
    dsimp only
    rw [hfirst, if_pos hlt, hlast, ← hskipped, ← List.append_assoc]
    exact ⟨rfl, hend, hclosed⟩
  · rw [if_neg hlt, min_eq_right (Nat.le_of_not_lt hlt), List.rtake, Nat.sub_self]
    exact h.receiveUpTo (Nat.le_of_not_lt hlt) (by omega)

end Follows

/-! ## Delivery -/

/-- Whatever happens, what was sent so far is accounted for. -/
lemma exists_isSound_run (c : Nat) (turns : List Turn) :
    ∃ sent, ((ofCapacity c).run turns).IsSound sent := by
  induction turns using List.reverseRecOn with
  | nil => exact ⟨[], .ofCapacity c⟩
  | append_singleton turns turn ih =>
    obtain ⟨sent, hsound⟩ := ih
    exact ⟨_, run_concat _ turns turn ▸ hsound.after turn⟩

/-- **Delivery.**  In every history of an announcer of any capacity, the latest event is the last
one announced.  Of the events announced since a subscriber came, and while it has not left, it has
passed some and has the others ahead of it.  It was told of those passed in their order, none twice
and none from before it came, and those that it was not told of are the ones it was told that it
missed.  It is told of a lag exactly if more are ahead of it than the announcer keeps, and asking to
the end gives the last of those ahead, as many as are kept, and then that there is nothing, or, with
the announcer gone, that there will be nothing. -/
theorem delivery (c : Nat) :
    (∀ turns, ((ofCapacity c).run turns).latest = (announced turns).getLast?) ∧
      ∀ before after : List Turn,
        let P := (max c 1).nextPowerOfTwo
        let start := (ofCapacity c).run before
        let n := start.subscribe.1
        let a := start.subscribe.2.run after
        let heard := start.subscribe.2.told n after
        .unsubscribe n ∉ after →
          ∃ passed ahead, announced after = passed ++ ahead ∧
            a.subscribers.lookup n = some (start.position + passed.length) ∧
            (events heard).Sublist passed ∧
            (events heard).length + missed heard = passed.length ∧
            (∀ m, (a.receive n).1 = .lagged m ↔ P < ahead.length ∧ m = ahead.length - P) ∧
            (a.drain n).1 =
              (if P < ahead.length then [.lagged (ahead.length - P)] else []) ++
                (ahead.rtake (min P ahead.length)).map .event ∧
            ((a.drain n).2.receive n).1 =
              if .close ∈ before ++ after then .closed else .empty := by
  refine ⟨fun turns => ?_, fun before after => ?_⟩
  · rw [latest_run]
    exact Option.or_none
  intro P start n a heard hstay
  obtain ⟨sent, hsound⟩ := exists_isSound_run c before
  obtain ⟨passed, ahead, hannounced, hfollows, hheard⟩ := (Follows.subscribe hsound).run hstay
  have hcapacity : a.capacity = P := by
    rw [capacity_run]
    exact capacity_run (ofCapacity c) before
  have hclosed : a.closed = decide (.close ∈ before ++ after) := by
    rw [closed_run, show start.subscribe.2.closed = start.closed from rfl, closed_run]
    simp [ofCapacity, List.mem_append, Bool.decide_or]
  obtain ⟨hdrain, hend, hendClosed⟩ := hfollows.drain
  refine ⟨passed, ahead, hannounced, ?_, hheard.events_sublist, hheard.length_eq, fun m => ?_, ?_,
    ?_⟩
  · rw [hsound.position_eq]
    exact hfollows.lookup_eq
  · rw [← hcapacity]
    exact hfollows.receive_eq_lagged_iff m
  · rw [← hcapacity]
    exact hdrain
  · rw [hend.receive_of_nil, hendClosed, hclosed]
    dsimp only
    simp

/-- Three events reach a subscriber with room for two, which then asks twice, and the announcer
goes. -/
def crowded : List Turn :=
  [.announce ⟨.refreshing, 100⟩, .announce ⟨.synced, 200⟩, .announce ⟨.refreshing, 300⟩,
    .receive 1, .receive 1, .close]

/-- The first event has been missed and the second told; the third can be had after the end. -/
theorem delivery_crowded :
    Turn.unsubscribe 1 ∉ crowded ∧
      ∃ passed ahead, announced crowded = passed ++ ahead ∧ passed.length = 2 ∧
        (events [.lagged 1, .event ⟨.synced, 200⟩]).Sublist passed ∧
        [.event ⟨.refreshing, 300⟩] =
          (ahead.rtake (min (max 2 1).nextPowerOfTwo ahead.length)).map Reception.event := by
  have hstay : Turn.unsubscribe 1 ∉ crowded := by decide
  obtain ⟨passed, ahead, hannounced, hposition, hevents, hcount, -, hdrain, -⟩ :=
    (delivery 2).2 [.subscribe] crowded hstay
  have hheard : ((ofCapacity 2).run [.subscribe]).subscribe.2.told 1 crowded =
      [.lagged 1, .event ⟨.synced, 200⟩] := by decide +kernel
  have hpassed : passed.length = 2 := by
    rw [← hcount]
    exact congrArg (fun heard => (events heard).length + missed heard) hheard
  have hahead : ahead.length = 1 := by
    have hlength := congrArg List.length hannounced
    rw [List.length_append, hpassed] at hlength
    exact Nat.add_left_cancel (n := 2) hlength.symm
  refine ⟨hstay, passed, ahead, hannounced, hpassed, ?_, ?_⟩
  · exact hheard ▸ hevents
  · rw [if_neg (by rw [hahead]; decide +kernel), List.nil_append] at hdrain
    rw [← hdrain]
    decide +kernel

end ShardIndex.Announcer
