import Mathlib.Data.Prod.Lex
import Gatehouse.Time.Instant

/-!
# Instants in order

The rank of an instant counts as its parts do: instants are ordered as they are read from a calendar
and a clock, the year first and the nanoseconds last (`rank_lt_iff`), and no two have the same rank
(`rank_inj`).
-/

namespace Gatehouse

variable {α : Type} [LinearOrder α] {a b : α} {x y k : Int} {i j : Nat}

/-- Two numbers compare as two other things do. -/
structure Tracks (x y : Int) (a b : α) : Prop where
  lt_iff : x < y ↔ a < b
  eq_iff : x = y ↔ a = b

theorem Tracks.int (x y : Int) : Tracks x y x y := ⟨.rfl, .rfl⟩

/-- With one more digit, numbers compare by it if they were the same without it. -/
theorem Tracks.digit (rest : Tracks x y a b) (last : (i : Int) < k) (last' : (j : Int) < k) :
    Tracks (x * k + i) (y * k + j) (toLex (a, i)) (toLex (b, j)) := by
  have apart {x y : Int} {i j : Nat} (less : x < y) (small : (i : Int) < k) :
      x * k + i < y * k + j := by
    have next : (x + 1) * k ≤ y * k := Int.mul_le_mul_of_nonneg_right less (by omega)
    rw [Int.add_mul] at next
    omega
  rcases lt_trichotomy x y with less | same | more
  · have below := rest.lt_iff.mp less
    have differ : x * k + i < y * k + j := apart less last
    exact ⟨by simp [Prod.Lex.toLex_lt_toLex, below, differ], by simp [below.ne, differ.ne]⟩
  · have same' := rest.eq_iff.mp same
    subst same same'
    refine ⟨by simp [Prod.Lex.toLex_lt_toLex], ?_⟩
    simp only [toLex_inj, Prod.mk.injEq, true_and]
    omega
  · have above : b < a := by
      rcases lt_trichotomy a b with less | same | more'
      · exact absurd (rest.lt_iff.mpr less) more.not_gt
      · exact absurd (rest.eq_iff.mpr same) more.ne'
      · exact more'
    have differ : y * k + j < x * k + i := apart more last'
    exact ⟨by simp [Prod.Lex.toLex_lt_toLex, above.not_gt, above.ne', differ.not_gt],
      by simp [above.ne', differ.ne']⟩

theorem Date.day_le (d : Date) : d.day ≤ 31 := by
  have longest : daysIn d.year d.month ≤ 31 := by
    unfold daysIn
    split
    · split <;> omega
    · split <;> omega
  exact d.day_ok.2.trans longest

namespace Instant

variable {s t : Instant}

/-- An instant as a calendar and a clock show it, the greatest part first. -/
def parts (t : Instant) : (((((Int ×ₗ Nat) ×ₗ Nat) ×ₗ Nat) ×ₗ Nat) ×ₗ Nat) ×ₗ Nat :=
  toLex (toLex (toLex (toLex (toLex (toLex (t.date.year, t.date.month), t.date.day), t.hour),
    t.minute), t.second), t.nanos)

theorem rank_tracks (s t : Instant) : Tracks s.rank t.rank s.parts t.parts := by
  have month (t : Instant) : (t.date.month : Int) < 13 := by
    have within := t.date.month_ok.2
    omega
  have day (t : Instant) : (t.date.day : Int) < 32 :=
    Int.ofNat_lt.mpr (Nat.lt_succ_of_le t.date.day_le)
  have hour (t : Instant) : (t.hour : Int) < 24 := Int.ofNat_lt.mpr t.hour_lt
  have minute (t : Instant) : (t.minute : Int) < 60 := Int.ofNat_lt.mpr t.minute_lt
  have second (t : Instant) : (t.second : Int) < 61 := by
    have within := t.second_le
    omega
  have nanos (t : Instant) : (t.nanos : Int) < 1000000000 := Int.ofNat_lt.mpr t.nanos_lt
  have calendar := ((Tracks.int s.date.year t.date.year).digit (month s) (month t)).digit (day s)
    (day t)
  have clock := ((calendar.digit (hour s) (hour t)).digit (minute s) (minute t)).digit (second s)
    (second t)
  exact clock.digit (nanos s) (nanos t)

/-- Instants are ordered by their parts. -/
theorem rank_lt_iff : s.rank < t.rank ↔ s.parts < t.parts := (rank_tracks s t).lt_iff

theorem parts_inj : s.parts = t.parts ↔ s = t := by
  refine ⟨fun same => ?_, congrArg parts⟩
  obtain ⟨⟨year, month, day, _, _⟩, hour, minute, second, nanos, _, _, _, _⟩ := s
  obtain ⟨⟨year', month', day', _, _⟩, hour', minute', second', nanos', _, _, _, _⟩ := t
  simp only [parts, toLex_inj, Prod.mk.injEq] at same
  obtain ⟨⟨⟨⟨⟨⟨rfl, rfl⟩, rfl⟩, rfl⟩, rfl⟩, rfl⟩, rfl⟩ := same
  rfl

theorem rank_inj : s.rank = t.rank ↔ s = t := (rank_tracks s t).eq_iff.trans parts_inj

end Instant

end Gatehouse
