import Hthreads.Software.SchedParam

/-! The 64-bit time of the processor (`htime.h`), read from the two 32-bit registers of the timer
core while it goes on counting. -/

namespace Hthreads.Software

structure ArchClockHelper where
  help : Fin 2 → Huint

namespace ArchClockHelper

-- the first word of the union is the low half on a little-endian processor
def time (d : ArchClockHelper) : BitVec 64 := d.help 1 ++ d.help 0

end ArchClockHelper

def counter (ticks : ℕ) : BitVec 64 := BitVec.ofNat 64 ticks

def timerGetHi (ticks : ℕ) : Huint := (counter ticks).extractLsb' 32 32

def timerGetLo (ticks : ℕ) : Huint := (counter ticks).extractLsb' 0 32

/-- `_arch_get_time` from register read `k` on, with the ticks at each read. It returns the time and
the next read, if it gets there in the given number of attempts. -/
def archGetTime (ticks : ℕ → ℕ) : ℕ → ℕ → Option (BitVec 64 × ℕ)
  | 0, _ => none
  | attempts + 1, k =>
    let d : ArchClockHelper := ⟨![timerGetLo (ticks (k + 1)), timerGetHi (ticks k)]⟩
    if d.help 1 ≠ timerGetHi (ticks (k + 2)) then archGetTime ticks attempts (k + 3)
    else some (d.time, k + 3)

lemma toNat_timerGetHi (n : ℕ) : (timerGetHi n).toNat = n / 2 ^ 32 % 2 ^ 32 := by
  simp [timerGetHi, counter, Nat.shiftRight_eq_div_pow]
  omega

lemma toNat_timerGetLo (n : ℕ) : (timerGetLo n).toNat = n % 2 ^ 32 := by
  simp [timerGetLo, counter]

lemma toNat_time (d : ArchClockHelper) :
    d.time.toNat = (d.help 1).toNat * 2 ^ 32 + (d.help 0).toNat := by
  rw [ArchClockHelper.time, BitVec.toNat_append, ← Nat.shiftLeft_add_eq_or_of_lt (d.help 0).isLt,
    Nat.shiftLeft_eq]

/-- A high word that is the same after as before is that of every tick in between, unless the
counter has gone round nearly as far as to where it was. -/
lemma counter_of_same_hi {a b c : ℕ} (hab : a ≤ b) (hbc : b ≤ c)
    (hround : c ≤ a + (2 ^ 64 - 2 ^ 32) ∨ c / 2 ^ 64 = a / 2 ^ 64)
    (h : timerGetHi a = timerGetHi c) :
    (⟨![timerGetLo b, timerGetHi a]⟩ : ArchClockHelper).time = counter b := by
  have hhi : a / 2 ^ 32 % 2 ^ 32 = c / 2 ^ 32 % 2 ^ 32 := by
    rw [← toNat_timerGetHi, ← toNat_timerGetHi, h]
  apply BitVec.eq_of_toNat_eq
  rw [toNat_time, counter, BitVec.toNat_ofNat]
  change (timerGetHi a).toNat * 2 ^ 32 + (timerGetLo b).toNat = _
  rw [toNat_timerGetHi, toNat_timerGetLo]
  omega

section Calls

variable {ticks : ℕ → ℕ} {attempts k k' : ℕ} {t : BitVec 64}

lemma exists_last_attempt (h : archGetTime ticks attempts k = some (t, k')) :
    ∃ i < attempts, k' = k + 3 * i + 3 ∧
      timerGetHi (ticks (k + 3 * i)) = timerGetHi (ticks (k + 3 * i + 2)) ∧
      t = (⟨![timerGetLo (ticks (k + 3 * i + 1)), timerGetHi (ticks (k + 3 * i))]⟩ :
        ArchClockHelper).time := by
  induction attempts generalizing k with
  | zero => cases h
  | succ attempts ih =>
    rw [archGetTime] at h
    split_ifs at h with hhi
    · obtain ⟨i, hi, hk, hsame, ht⟩ := ih h
      have hread : k + 3 + 3 * i = k + 3 * (i + 1) := by omega
      rw [hread] at hk hsame ht
      exact ⟨i + 1, by omega, hk, hsame, ht⟩
    · obtain ⟨rfl, rfl⟩ := Prod.mk.inj (Option.some.inj h)
      exact ⟨0, by omega, rfl, not_not.mp hhi, rfl⟩

lemma returns_counter (hticks : Monotone ticks)
    (hround : ∀ i < attempts, ticks (k + 3 * i + 2) ≤ ticks (k + 3 * i) + (2 ^ 64 - 2 ^ 32) ∨
      ticks (k + 3 * i + 2) / 2 ^ 64 = ticks (k + 3 * i) / 2 ^ 64)
    (h : archGetTime ticks attempts k = some (t, k')) :
    ∃ c, ticks k ≤ c ∧ c ≤ ticks (k' - 1) ∧ t = counter c := by
  obtain ⟨i, hi, rfl, hsame, rfl⟩ := exists_last_attempt h
  refine ⟨ticks (k + 3 * i + 1), hticks (by omega), hticks (by omega), ?_⟩
  exact counter_of_same_hi (hticks (by omega)) (hticks (by omega)) (hround i hi) hsame

lemma counter_le {c d : ℕ} (hcd : c ≤ d) (hwrap : d / 2 ^ 64 = c / 2 ^ 64) :
    counter c ≤ counter d := by
  rw [BitVec.le_def, counter, counter, BitVec.toNat_ofNat, BitVec.toNat_ofNat]
  omega

lemma counter_toInt {c : ℕ} (hc : c < 2 ^ 63) : (counter c).toInt = c := by
  rw [BitVec.toInt_eq_toNat_cond, counter, BitVec.toNat_ofNat]
  omega

/-- The time is one that the counter had during the call, and it does not decrease from one call to
a later one: as an unsigned number while the counter does not wrap, and as the signed number that
the call returns while the counter stays below `2 ^ 63`. -/
theorem archGetTime_linearizable (hticks : Monotone ticks)
    (hattempts : ∀ i < attempts, ticks (k + 3 * i + 2) ≤ ticks (k + 3 * i) + (2 ^ 64 - 2 ^ 32))
    (h : archGetTime ticks attempts k = some (t, k')) :
    (∃ c, ticks k ≤ c ∧ c ≤ ticks (k' - 1) ∧ t = counter c) ∧
      ∀ later l u l', k' ≤ l → archGetTime ticks later l = some (u, l') →
        ticks (l' - 1) / 2 ^ 64 = ticks k / 2 ^ 64 →
          t ≤ u ∧ (ticks (l' - 1) < 2 ^ 63 → t.toInt ≤ u.toInt) := by
  obtain ⟨c, hkc, hck, rfl⟩ := returns_counter hticks (fun i hi => .inl (hattempts i hi)) h
  refine ⟨⟨c, hkc, hck, rfl⟩, ?_⟩
  intro later l u l' hl hlater hwrap
  obtain ⟨i, -, hk', -⟩ := exists_last_attempt h
  obtain ⟨j, hj, hl', hsame, rfl⟩ := exists_last_attempt hlater
  have hstart : ticks k ≤ ticks (l + 3 * j) := hticks (by omega)
  have hend : ticks (l + 3 * j + 2) = ticks (l' - 1) := by rw [hl']; rfl
  have hfirst : ticks (l + 3 * j) ≤ ticks (l + 3 * j + 1) := hticks (by omega)
  have hsecond : ticks (l + 3 * j + 1) ≤ ticks (l + 3 * j + 2) := hticks (by omega)
  have hbefore : ticks (k' - 1) ≤ ticks (l + 3 * j) := hticks (by omega)
  rw [counter_of_same_hi hfirst hsecond (.inr (by omega)) hsame]
  refine ⟨counter_le (by omega) (by omega), fun hsmall => ?_⟩
  rw [counter_toInt (by omega), counter_toInt (by omega)]
  omega

end Calls

def passing (k : ℕ) : ℕ := if k = 0 then 0xffffff00 else 0x1_0000_0000 + 10 * k

theorem archGetTime_over_a_roll_over :
    Monotone passing ∧
      (∀ i < 2, passing (0 + 3 * i + 2) ≤ passing (0 + 3 * i) + (2 ^ 64 - 2 ^ 32)) ∧
      ((∃ c, passing 0 ≤ c ∧ c ≤ passing 5 ∧ (0x1_0000_0028 : BitVec 64) = counter c) ∧
        ∀ later l u l', 6 ≤ l → archGetTime passing later l = some (u, l') →
          passing (l' - 1) / 2 ^ 64 = passing 0 / 2 ^ 64 →
            0x1_0000_0028 ≤ u ∧ (passing (l' - 1) < 2 ^ 63 →
              (0x1_0000_0028 : BitVec 64).toInt ≤ u.toInt)) := by
  have hmono : Monotone passing := by
    refine monotone_nat_of_le_succ fun k => ?_
    rw [passing, passing, if_neg (Nat.succ_ne_zero k)]
    split_ifs <;> omega
  have hattempts : ∀ i < 2, passing (0 + 3 * i + 2) ≤ passing (0 + 3 * i) + (2 ^ 64 - 2 ^ 32) := by
    decide
  have hreturns : archGetTime passing 2 0 = some (0x1_0000_0028, 6) := by decide
  exact ⟨hmono, hattempts, archGetTime_linearizable hmono hattempts hreturns⟩

/-- An attempt in which the counter goes round to just below where it was returns a time that it did
not have, and the signed time falls where the counter passes `2 ^ 63`. -/
def goingRound (k : ℕ) : ℕ :=
  if k = 0 then 100 else if k = 1 then 5 * 2 ^ 32 + 75 else 2 ^ 64 + 50

def passingHalf (k : ℕ) : ℕ := if k < 3 then 2 ^ 63 - 1 else 2 ^ 63

theorem archGetTime_can_be_wrong :
    (Monotone goingRound ∧ goingRound 2 < goingRound 0 + 2 ^ 64 ∧
      archGetTime goingRound 1 0 = some (75, 3) ∧
      ∀ c, goingRound 0 ≤ c → c ≤ goingRound 2 → counter c ≠ 75) ∧
    Monotone passingHalf ∧ archGetTime passingHalf 1 0 = some (BitVec.ofNat 64 (2 ^ 63 - 1), 3) ∧
      archGetTime passingHalf 1 3 = some (BitVec.ofNat 64 (2 ^ 63), 6) ∧
      (BitVec.ofNat 64 (2 ^ 63)).toInt < (BitVec.ofNat 64 (2 ^ 63 - 1)).toInt := by
  refine ⟨⟨?_, by decide, by decide, ?_⟩, ?_, by decide, by decide, by decide⟩
  · refine monotone_nat_of_le_succ fun k => ?_
    rcases k with _ | _ | k
    · decide
    · decide
    · exact le_refl _
  · intro c hfirst hlast h
    have hc : c % 2 ^ 64 = 75 := by
      rw [← BitVec.toNat_ofNat]
      exact congrArg BitVec.toNat h
    have hfirst' : 100 ≤ c := hfirst
    have hlast' : c ≤ 2 ^ 64 + 50 := hlast
    omega
  · refine monotone_nat_of_le_succ fun k => ?_
    unfold passingHalf
    split_ifs <;> omega

end Hthreads.Software
