import Hthreads.Slaves.Matching

/-! The search for a slave stays inside the arrays as long as the preference lists name slaves. -/

namespace Hthreads.Slaves

open Software

namespace Platform

variable (P : Platform) (E : Surroundings) (funcId : Huint)

def Takes (index : ℕ) : Prop :=
  ∃ slave, P.slaveAt funcId index = some slave ∧ E.matched index = flagHwtiFree ∧
    (P.hasPolyFunction funcId = true → P.checkFirstPolymorphic = true →
      P.fit funcId slave (E.accelerator index) = .perfect)

/-- Both lists of a function with polymorphic calls can have ended at an index that the loop gets
to; here the loop has taken a slave before. -/
def ListedUntilTaken : Prop :=
  P.opcodeFlagging = true → P.hasPolyFunction funcId = true → ∀ index < P.cpus,
    P.preferredList funcId index = notListed → P.nonPreferredList funcId index = notListed →
      ∃ j < index, P.Takes E funcId j

lemma scan_succ (m : Matches) (index left : ℕ) :
    (P.slaveAt funcId index = none ∧ P.scan E funcId m index (left + 1) = (enqueueThread, [])) ∨
    ∃ slave cells, P.slaveAt funcId index = some slave ∧
      (∀ cell ∈ cells, cell = .hwtiArray slave.toNat ∨ cell = .slaveTable slave.toNat) ∧
      .hwtiArray slave.toNat ∈ cells ∧
      ((P.Takes E funcId index ∧ P.scan E funcId m index (left + 1) = (slave, cells)) ∨
        (¬ P.Takes E funcId index ∧ ∃ m', (m' = m ∨ ∃ fit, m' = m.record slave fit) ∧
          P.scan E funcId m index (left + 1) =
            ((P.scan E funcId m' (index + 1) left).1,
              cells ++ (P.scan E funcId m' (index + 1) left).2))) := by
  rw [scan]
  cases hslave : P.slaveAt funcId index with
  | none => exact .inl ⟨rfl, rfl⟩
  | some slave =>
    refine .inr ?_
    have htakes : P.Takes E funcId index ↔ E.matched index = flagHwtiFree ∧
        (P.hasPolyFunction funcId = true → P.checkFirstPolymorphic = true →
          P.fit funcId slave (E.accelerator index) = .perfect) := by
      simp [Takes, hslave]
    by_cases hfree : E.matched index = flagHwtiFree
    · by_cases hpoly : P.hasPolyFunction funcId = true
      · by_cases hfit : P.checkFirstPolymorphic = true ∧
            P.fit funcId slave (E.accelerator index) ≠ .perfect
        · refine ⟨slave, [.hwtiArray slave.toNat, .slaveTable slave.toNat], rfl, by simp, by simp,
            .inr ⟨by simp [htakes, hfree, hpoly, hfit], m.record slave
              (P.fit funcId slave (E.accelerator index)), .inr ⟨_, rfl⟩, ?_⟩⟩
          simp [hfree, hpoly, hfit]
        · refine ⟨slave, [.hwtiArray slave.toNat, .slaveTable slave.toNat], rfl, by simp, by simp,
            .inl ⟨htakes.mpr ⟨hfree, fun _ hcheck => ?_⟩, by simp [hfree, hpoly, hfit]⟩⟩
          exact not_not.mp fun hne => hfit ⟨hcheck, hne⟩
      · exact ⟨slave, [.hwtiArray slave.toNat], rfl, by simp, by simp,
          .inl ⟨by simp [htakes, hfree, hpoly], by simp [hfree, hpoly]⟩⟩
    · exact ⟨slave, [.hwtiArray slave.toNat], rfl, by simp, by simp,
        .inr ⟨by simp [htakes, hfree], m, .inl rfl, by simp [hfree]⟩⟩

variable {P E funcId}

lemma notListed_toNat : notListed.toNat = 2 ^ 32 - 1 := by decide

lemma not_inBounds_notListed : ¬ Cell.InBounds P (.hwtiArray notListed.toNat) := by
  have hcpus := P.cpus_lt
  rw [Cell.InBounds, notListed_toNat]
  omega

lemma slaveAt_none {index : ℕ} (h : P.slaveAt funcId index = none) :
    P.hasPolyFunction funcId = false := by
  unfold slaveAt at h
  split_ifs at h with hflag hpoly <;> simp_all

lemma slaveAt_notListed_iff {index : ℕ} (hi : index < P.cpus) :
    P.slaveAt funcId index = some notListed ↔
      P.opcodeFlagging = true ∧ P.hasPolyFunction funcId = true ∧
        P.preferredList funcId index = notListed ∧ P.nonPreferredList funcId index = notListed := by
  have hcpus := P.cpus_lt
  have hindex : BitVec.ofNat 32 index ≠ notListed := by
    intro heq
    have := congrArg BitVec.toNat heq
    rw [BitVec.toNat_ofNat, notListed_toNat] at this
    omega
  unfold slaveAt
  split_ifs <;> simp_all

lemma slaveAt_lt {index : ℕ} {slave : Huint} (hi : index < P.cpus)
    (h : P.slaveAt funcId index = some slave) (hne : slave ≠ notListed) :
    slave.toNat < P.cpus := by
  have hcpus := P.cpus_lt
  have hpreferred := P.preferredList_lt funcId index
  have hnonPreferred := P.nonPreferredList_lt funcId index
  cases hflag : P.opcodeFlagging with
  | false =>
    simp only [slaveAt, hflag, Bool.false_eq_true, if_false, Option.some.injEq] at h
    rw [← h, BitVec.toNat_ofNat]
    omega
  | true =>
    unfold slaveAt at h
    split_ifs at h <;> simp_all

lemma listedUntilTaken_iff :
    P.ListedUntilTaken E funcId ↔ ∀ index < P.cpus, P.slaveAt funcId index = some notListed →
      ∃ j < index, P.Takes E funcId j := by
  constructor
  · intro h index hi hslave
    obtain ⟨hflag, hpoly, hpreferred, hnonPreferred⟩ := (slaveAt_notListed_iff hi).mp hslave
    exact h hflag hpoly index hi hpreferred hnonPreferred
  · intro h hflag hpoly index hi hpreferred hnonPreferred
    exact h index hi ((slaveAt_notListed_iff hi).mpr ⟨hflag, hpoly, hpreferred, hnonPreferred⟩)

lemma scan_inBounds_iff (m : Matches) (index left : ℕ) (hleft : index + left = P.cpus) :
    (∀ cell ∈ (P.scan E funcId m index left).2, cell.InBounds P) ↔
      ∀ i, index ≤ i → i < P.cpus → P.slaveAt funcId i = some notListed →
        ∃ j, index ≤ j ∧ j < i ∧ P.Takes E funcId j := by
  induction left generalizing m index with
  | zero =>
    refine iff_of_true (by simp [scan]) fun i hi hlt => ?_
    omega
  | succ left ih =>
    obtain ⟨hnone, hscan⟩ | ⟨slave, cells, hslave, honly, hflag, hround⟩ :=
      scan_succ P E funcId m index left
    · rw [hscan]
      refine iff_of_true (by simp) fun i _ hi hslave => ?_
      have hpoly := ((slaveAt_notListed_iff hi).mp hslave).2.1
      rw [slaveAt_none hnone] at hpoly
      cases hpoly
    · by_cases hne : slave = notListed
      · subst hne
        refine iff_of_false (fun h => ?_) fun h => ?_
        · obtain ⟨-, hscan⟩ | ⟨-, m', -, hscan⟩ := hround
          all_goals
            rw [hscan] at h
            exact not_inBounds_notListed (h _ (by simp [hflag]))
        · obtain ⟨j, hj, hlt, -⟩ := h index le_rfl (by omega) hslave
          omega
      · have hcells : ∀ cell ∈ cells, cell.InBounds P := by
          intro cell hcell
          have hlt := slaveAt_lt (by omega) hslave hne
          obtain rfl | rfl := honly cell hcell
          · exact hlt
          · exact hlt
        have hpast : ∀ i, index ≤ i → P.slaveAt funcId i = some notListed → index < i := by
          intro i hi hi'
          refine lt_of_le_of_ne hi fun heq => hne ?_
          subst heq
          exact Option.some.inj (hslave.symm.trans hi')
        obtain ⟨htakes, hscan⟩ | ⟨htakes, m', -, hscan⟩ := hround
        · rw [hscan]
          exact iff_of_true hcells fun i hi _ hi' => ⟨index, le_rfl, hpast i hi hi', htakes⟩
        · rw [hscan, List.forall_mem_append, and_iff_right hcells, ih m' (index + 1) (by omega)]
          constructor
          · intro h i hi hlt hi'
            obtain ⟨j, hj, hji, hjtakes⟩ := h i (hpast i hi hi') hlt hi'
            exact ⟨j, by omega, hji, hjtakes⟩
          · intro h i hi hlt hi'
            obtain ⟨j, hj, hji, hjtakes⟩ := h i (by omega) hlt hi'
            refine ⟨j, Nat.lt_of_le_of_ne hj fun heq => htakes ?_, hji, hjtakes⟩
            exact heq ▸ hjtakes

lemma findBestMatch_inBounds_iff :
    (∀ cell ∈ (P.findBestMatch E funcId).2, cell.InBounds P) ↔ P.ListedUntilTaken E funcId := by
  rw [findBestMatch, scan_inBounds_iff _ _ _ (Nat.zero_add _), listedUntilTaken_iff]
  simp

-- `notListed` is also the answer FAILURE
def Answer (P : Platform) (found : Hint) : Prop :=
  found = failure ∨ found.toNat < P.cpus

lemma slaveAt_answer {index : ℕ} {slave : Huint} (hi : index < P.cpus)
    (h : P.slaveAt funcId index = some slave) : P.Answer slave := by
  by_cases hne : slave = notListed
  · exact .inl hne
  · exact .inr (slaveAt_lt hi h hne)

structure Matches.Within (P : Platform) (m : Matches) : Prop where
  bestMatch : P.Answer m.bestMatch
  betterMatch : P.Answer m.betterMatch
  possibleMatch : P.Answer m.possibleMatch

lemma Matches.Within.record {m : Matches} {slave : Hint} (h : m.Within P) (hs : P.Answer slave)
    (fit : Fit) : (m.record slave fit).Within P := by
  have hkept (kept : Hint) (hk : P.Answer kept) :
      P.Answer (if kept = -1 then slave else kept) := by
    split
    · exact hs
    · exact hk
  cases fit with
  | perfect => exact h
  | best => exact ⟨hkept _ h.bestMatch, h.betterMatch, h.possibleMatch⟩
  | better => exact ⟨h.bestMatch, hkept _ h.betterMatch, h.possibleMatch⟩
  | possible => exact ⟨h.bestMatch, h.betterMatch, hkept _ h.possibleMatch⟩

lemma Matches.Within.choose {m : Matches} (h : m.Within P) :
    m.choose = enqueueThread ∨ P.Answer m.choose := by
  unfold Matches.choose
  split_ifs
  · exact .inr h.bestMatch
  · exact .inr h.betterMatch
  · exact .inr h.possibleMatch
  · exact .inl rfl

lemma scan_answer {m : Matches} (hm : m.Within P) (index left : ℕ) (hleft : index + left = P.cpus) :
    (P.scan E funcId m index left).1 = enqueueThread ∨
      P.Answer (P.scan E funcId m index left).1 := by
  induction left generalizing m index with
  | zero => exact hm.choose
  | succ left ih =>
    obtain ⟨-, hscan⟩ | ⟨slave, cells, hslave, -, -, ⟨-, hscan⟩ | ⟨-, m', hm', hscan⟩⟩ :=
      scan_succ P E funcId m index left
    · exact .inl (congrArg Prod.fst hscan)
    · rw [hscan]
      exact .inr (slaveAt_answer (by omega) hslave)
    · rw [hscan]
      refine ih ?_ (index + 1) (by omega)
      obtain rfl | ⟨fit, rfl⟩ := hm'
      · exact hm
      · exact hm.record (slaveAt_answer (by omega) hslave) fit

lemma findBestMatch_answer :
    (P.findBestMatch E funcId).1 = enqueueThread ∨ P.Answer (P.findBestMatch E funcId).1 := by
  have hnone : P.Answer (-1) := .inl rfl
  exact scan_answer ⟨hnone, hnone, hnone⟩ 0 P.cpus (Nat.zero_add _)

lemma allSlaves_inBounds : ∀ cell ∈ P.allSlaves, cell.InBounds P := by
  intro cell hcell
  obtain ⟨i, hi, rfl⟩ := List.mem_map.mp hcell
  exact List.mem_range.mp hi

lemma awaitFree_inBounds {fuel round : ℕ} {cells : List Cell}
    (h : P.awaitFree E fuel round = some cells) : ∀ cell ∈ cells, cell.InBounds P := by
  induction fuel generalizing round cells with
  | zero => cases h
  | succ fuel ih =>
    rw [awaitFree] at h
    split at h
    · obtain ⟨rest, hrest, rfl⟩ := Option.map_eq_some_iff.mp h
      exact List.forall_mem_append.mpr ⟨allSlaves_inBounds, ih hrest⟩
    · cases h
      exact allSlaves_inBounds

end Platform

end Hthreads.Slaves
