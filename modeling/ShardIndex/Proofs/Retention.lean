import ShardIndex.Config.Environment
import ShardIndex.Proofs.Rebuilding
import ShardIndex.Proofs.Views

/-!
# Longer and shorter retentions

A retention is configured in hours, and a rebuilding from the records still alive leaves out what
ended before it.  As long as the hours fit a signed word, more of them make for a longer retention
(`retentionMillis_mono`), one that never reaches beyond the clock, so nothing is lost by setting
more hours (`kept_of_longer_retention`).

Hours beyond that are read as a negative number.  The retention then lies ahead of the clock
(`retentionMillis_nonneg_iff`), and records that are alive still are left out
(`skipped_of_unsigned_hours`).
-/

namespace ShardIndex

/-! ## Numbers held inside the range of times -/

lemma clip_le {s t : Int} (h : s ≤ t) (ht : minTime ≤ t) : clip s ≤ t := by
  unfold clip
  omega

lemma retentionMillis_of_le {hours : Nat} (h : (hours : Int) ≤ maxTime) :
    retentionMillis hours = clip (hours * millisPerHour) := by
  have hword : Int.bmod hours 18446744073709551616 = hours := by
    refine Int.bmod_eq_of_le ?_ ?_ <;> (unfold maxTime at h; omega)
  rw [retentionMillis, hword]

lemma retentionMillis_mono {hours hours' : Nat} (h : hours ≤ hours')
    (hsigned : (hours' : Int) ≤ maxTime) : retentionMillis hours ≤ retentionMillis hours' := by
  have hsigned₀ : (hours : Int) ≤ maxTime := by omega
  rw [retentionMillis_of_le hsigned₀, retentionMillis_of_le hsigned]
  refine clip_mono ?_
  unfold millisPerHour
  omega

/-- Of the hours that fit an unsigned word, those that do not fit a signed one count backwards. -/
lemma retentionMillis_nonneg_iff {hours : Nat} (h : hours < 18446744073709551616) :
    0 ≤ retentionMillis hours ↔ (hours : Int) ≤ maxTime := by
  constructor
  · intro hnonneg
    by_contra hlarge
    have hword : Int.bmod hours 18446744073709551616 = hours - 18446744073709551616 := by
      rw [Int.bmod_def]
      unfold maxTime at hlarge
      omega
    rw [retentionMillis, hword] at hnonneg
    unfold clip minTime maxTime millisPerHour at hnonneg
    omega
  · intro hsigned
    rw [retentionMillis_of_le hsigned]
    unfold clip minTime maxTime millisPerHour
    omega

/-! ## The time from which on records count as alive -/

section Checkpoints

variable {checkpoint : Option Int} {now retention retention' : Int}

/-- A longer retention reaches further back. -/
lemma effectiveCheckpoint_anti (h : retention ≤ retention') :
    effectiveCheckpoint checkpoint now retention' ≤
      effectiveCheckpoint checkpoint now retention := by
  have hfloor : clip (now - retention') ≤ clip (now - retention) := clip_mono (by omega)
  cases checkpoint with
  | none => exact hfloor
  | some p =>
    show max p (clip (now - retention')) ≤ max p (clip (now - retention))
    omega

lemma effectiveCheckpoint_le (h : 0 ≤ retention) (hnow : minTime ≤ now) :
    effectiveCheckpoint checkpoint now retention ≤ checkpoint.elim now (max now) := by
  have hfloor : clip (now - retention) ≤ now := clip_le (by omega) hnow
  cases checkpoint with
  | none => exact hfloor
  | some p =>
    show max p (clip (now - retention)) ≤ max now p
    omega

end Checkpoints

namespace Bootstrap

open Identity RecordStream

/-! ## Rebuildings -/

section Calls

variable {σ ρ ι : Type} [ColumnStore σ] [Resolver ρ] [Index ι] {store : σ} {shard : Shard}
  {schemas : Schema.Registry} {settings : Settings} {checkpoint : Option Int} {retention : Int}
  {parallelism : Option Nat} {schedule : List Choice} {w w' : World ρ ι}

/-- Whether a record was indexed from one world to another: a row was written for it, and readers
find its key. -/
structure Indexed [LawfulIndex ι] (w w' : World ρ ι) (r : Record) : Prop where
  row : ∃ row ∈ written (w'.since w), Record.ofRow row = r
  shown : ((LawfulIndex.reader w'.index).get? r.key).isSome

lemma ofRow_mem_alive {result : Except Failure Nat}
    (hcall : (Strategy.downsample checkpoint retention parallelism).run settings schemas store shard
      schedule w = (result, w')) {row : Key × Entry} (hrow : row ∈ written (w'.since w)) :
    Record.ofRow row ∈ alive store shard checkpoint settings.now retention := by
  have ordered : (Strategy.downsample checkpoint retention parallelism).IsOrdered := trivial
  obtain ⟨written?, tales, j, tail, course⟩ :=
    exists_course ordered settings schemas store shard schedule w
  rw [hcall] at course
  rw [course.evolves.since_eq, course.views_eq.2.2] at hrow
  obtain ⟨r, hr, n, rfl⟩ := course.account.exists_mem_of_mem_written hrow
  rw [recordsOf_streams_downsample] at hr
  exact hr

/-- A rebuilding that ends well has indexed every record that is alive. -/
lemma indexed_of_mem_alive [LawfulIndex ι] {n : Nat}
    (hcall : (Strategy.downsample checkpoint retention parallelism).run settings schemas store shard
      schedule w = (.ok n, w')) {r : Record}
    (hr : r ∈ alive store shard checkpoint settings.now retention) : Indexed w w' r := by
  obtain ⟨tales, j, tail, course⟩ := exists_course_of_run_eq_ok hcall
  rw [← recordsOf_streams_downsample store shard checkpoint retention settings schemas parallelism]
    at hr
  have hrows : written (w'.since w) = written j := by
    rw [course.evolves.since_eq, course.views_eq.2.2]
  obtain ⟨row, hrow, hmade⟩ := List.mem_map.1 (course.account.written_perm.mem_iff.2 hr)
  refine ⟨⟨row, hrows ▸ hrow, hmade⟩, ?_⟩
  obtain ⟨hcommitted, hreader⟩ := course.contents_of_ok
  obtain ⟨e, he, -⟩ := exists_entryAfter ((course.account.exists_row_iff r.key).2 ⟨r, hr, rfl⟩) .add
    (LawfulIndex.current? w.index r.key)
  have entry : (LawfulIndex.committed w'.index).get? r.key = some e := (hcommitted r.key).trans he
  rw [hreader, entry]
  rfl

end Calls

/-- **A longer retention drops no more.**  Say one configuration has at least as many hours of
retention as another, and these fit a signed word.  Then the time from which on records count as
alive is no later for it, nor later than both the clock and what was persisted.

So if a rebuilding with the longer retention ends well, it has indexed every record for which one
with the shorter retention, at the same time and however it ended, has written a row; and it has
indexed every record that ends after the clock and after what was persisted. -/
theorem kept_of_longer_retention {σ ρ₀ ρ ι₀ ι : Type} [ColumnStore σ] [Resolver ρ₀] [Resolver ρ]
    [Index ι₀] [Index ι] [LawfulIndex ι] (store : σ) (shard : Shard) (schemas : Schema.Registry)
    (settings : Settings) (checkpoint : Option Int) {b₀ b : Config.Building}
    (hhours : b₀.retentionHours ≤ b.retentionHours) (hsigned : (b.retentionHours : Int) ≤ maxTime)
    (hclock : minTime ≤ settings.now) :
    effectiveCheckpoint checkpoint settings.now b.retention ≤
      effectiveCheckpoint checkpoint settings.now b₀.retention ∧
    effectiveCheckpoint checkpoint settings.now b.retention ≤
      checkpoint.elim settings.now (max settings.now) ∧
    ∀ (parallelism : Option Nat) (schedule : List Choice) (w w' : World ρ ι) (n : Nat),
      (Strategy.downsample checkpoint b.retention parallelism).run settings schemas store shard
        schedule w = (.ok n, w') →
      (∀ (parallelism₀ : Option Nat) (schedule₀ : List Choice) (w₀ w₀' : World ρ₀ ι₀)
        (result : Except Failure Nat),
        (Strategy.downsample checkpoint b₀.retention parallelism₀).run settings schemas store shard
          schedule₀ w₀ = (result, w₀') →
        ∀ row ∈ written (w₀'.since w₀), Indexed w w' (Record.ofRow row)) ∧
      ∀ r ∈ (ColumnStore.scan store shard).records, settings.now < r.endTime →
        (∀ p ∈ checkpoint, p < r.endTime) → Indexed w w' r := by
  have unsigned : b.retentionHours < 18446744073709551616 := by
    unfold maxTime at hsigned
    omega
  have longer : effectiveCheckpoint checkpoint settings.now b.retention ≤
      effectiveCheckpoint checkpoint settings.now b₀.retention :=
    effectiveCheckpoint_anti (retentionMillis_mono hhours hsigned)
  have behind : effectiveCheckpoint checkpoint settings.now b.retention ≤
      checkpoint.elim settings.now (max settings.now) :=
    effectiveCheckpoint_le ((retentionMillis_nonneg_iff unsigned).2 hsigned) hclock
  refine ⟨longer, behind, fun parallelism schedule w w' n hcall => ⟨?_, ?_⟩⟩
  · intro parallelism₀ schedule₀ w₀ w₀' result hcall₀ row hrow
    obtain ⟨hstored, halive⟩ := mem_alive_iff.1 (ofRow_mem_alive hcall₀ hrow)
    exact indexed_of_mem_alive hcall (mem_alive_iff.2 ⟨hstored, lt_of_le_of_lt longer halive⟩)
  · intro r hr hnow hpersisted
    have hlate : checkpoint.elim settings.now (max settings.now) < r.endTime := by
      cases checkpoint with
      | none => exact hnow
      | some p => exact max_lt hnow (hpersisted p rfl)
    exact indexed_of_mem_alive hcall (mem_alive_iff.2 ⟨hr, lt_of_le_of_lt behind hlate⟩)

/-- The settings for building when a variable of the environment gives the hours of retention. -/
def hoursFromEnvironment (hours : String) : Config.Building :=
  (Config.ofEnvironment ⟨[("CHRONICLE_INDEX_TTL_HOURS", hours)], none⟩).1.building

/-- Two series, of which one ended more than an hour before ten million, and the other ends
later. -/
def earlyAndLate : RecordLog :=
  ⟨[⟨⟨"metrics", 0⟩, ⟨[170], 0, 6000000⟩, 0⟩, ⟨⟨"metrics", 0⟩, ⟨[187], 0, 20000000⟩, 0⟩]⟩

/-- A rebuilding at ten million with some hours of retention. -/
def earlyAndLateCall (hours : String) : Except Failure Nat × World Counter VolatileIndex :=
  (Strategy.downsample none (hoursFromEnvironment hours).retention (some 2)).run ⟨1, 10000000⟩
    .empty earlyAndLate ⟨"metrics", 0⟩ [] ⟨.fresh, .empty, []⟩

/-- With one hour the early series is left out.  With as many hours as fit a signed word, both
series are indexed. -/
theorem kept_of_longer_retention_earlyAndLate :
    (earlyAndLateCall "1").1 = .ok 1 ∧ (earlyAndLateCall "9223372036854775807").1 = .ok 2 ∧
      Indexed ⟨.fresh, .empty, []⟩ (earlyAndLateCall "9223372036854775807").2
        ⟨[187], 0, 20000000⟩ := by
  have short : (earlyAndLateCall "1").1 = .ok 1 := by decide +kernel
  have long : (earlyAndLateCall "9223372036854775807").1 = .ok 2 := by decide +kernel
  have called : earlyAndLateCall "9223372036854775807" =
      (.ok 2, (earlyAndLateCall "9223372036854775807").2) := Prod.ext long rfl
  have wrote : ([187], ⟨0, 0, 20000000⟩) ∈ written ((earlyAndLateCall "1").2.since
      ⟨.fresh, .empty, []⟩) := by decide +kernel
  have longer : (hoursFromEnvironment "1").retentionHours ≤
      (hoursFromEnvironment "9223372036854775807").retentionHours := by decide +kernel
  have signed : ((hoursFromEnvironment "9223372036854775807").retentionHours : Int) ≤ maxTime := by
    decide +kernel
  obtain ⟨-, -, kept⟩ := @kept_of_longer_retention RecordLog Counter Counter VolatileIndex
    VolatileIndex _ _ _ _ _ _ earlyAndLate ⟨"metrics", 0⟩ .empty ⟨1, 10000000⟩ none _ _ longer
    signed (by decide)
  exact ⟨short, long, (kept _ _ _ _ 2 called).1 _ _ _ _ _ rfl _ wrote⟩

/-- One hour more, and nothing is alive: the series that ends after the clock is not indexed,
though it is with a single hour. -/
theorem skipped_of_unsigned_hours :
    (hoursFromEnvironment "1").retentionHours ≤
      (hoursFromEnvironment "9223372036854775808").retentionHours ∧
    effectiveCheckpoint none 10000000 (hoursFromEnvironment "1").retention <
      effectiveCheckpoint none 10000000 (hoursFromEnvironment "9223372036854775808").retention ∧
    10000000 <
      effectiveCheckpoint none 10000000 (hoursFromEnvironment "9223372036854775808").retention ∧
    (earlyAndLateCall "1").2.index.reader.get? [187] = some ⟨0, 0, 20000000⟩ ∧
    (earlyAndLateCall "9223372036854775808").1 = .ok 0 ∧
    (earlyAndLateCall "9223372036854775808").2.index.reader.get? [187] = none := by
  decide +kernel

end Bootstrap

end ShardIndex
