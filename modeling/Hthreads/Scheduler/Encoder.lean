import Hthreads.Library.FirstSet
import Hthreads.Scheduler.Entries

/-! The three-cycle priority encoder (`parallel.vhd`). The 128 input bits are searched in
four chunks of 32. -/

namespace Hthreads.Scheduler

open Library

inductive FindState
  | narrowSearch
  | priorEncode
  | priorRead
  deriving DecidableEq

structure Encoder where
  findCurrent : FindState
  best : Priority
  priIn : BitVec 5 → Bool
  narrow : BitVec 2 → Bool

namespace Encoder

def bitSet {n : ℕ} (data : BitVec n → Bool) : Bool := decide (∃ i, data i = true)

def bitRange (data : Priority → Bool) (index : BitVec 2) : BitVec 5 → Bool :=
  fun i => data (index ++ i)

-- The loops run from the highest index down and every hit overwrites the previous one, so
-- the lowest set index is what remains.
def priOut (priIn : BitVec 5 → Bool) : BitVec 5 := (firstSet priIn).getD 0

def narrowNext (input : Priority → Bool) : BitVec 2 → Bool := fun i => bitSet (bitRange input i)

def priInNext (input : Priority → Bool) (narrow : BitVec 2 → Bool) (priIn : BitVec 5 → Bool) :
    BitVec 5 → Bool :=
  match firstSet narrow with
  | some i => bitRange input i
  | none => priIn

def bestNext (narrow : BitVec 2 → Bool) (priIn : BitVec 5 → Bool) (best : Priority) : Priority :=
  match firstSet narrow with
  | some i => i ++ priOut priIn
  | none => best

def init : Encoder := ⟨.narrowSearch, 0, fun _ => false, fun _ => false⟩

def clock (rst enable : Bool) (input : Priority → Bool) (e : Encoder) : Encoder :=
  if rst then init
  else match e.findCurrent with
    | .narrowSearch =>
      if enable then { e with narrow := narrowNext input, findCurrent := .priorEncode } else e
    | .priorEncode =>
      { e with priIn := priInNext input e.narrow e.priIn, findCurrent := .priorRead }
    | .priorRead =>
      { e with best := bestNext e.narrow e.priIn e.best, findCurrent := .narrowSearch }

/-- What one search of a steady input leaves in `best`. -/
def search (input : Priority → Bool) (best : Priority) : Priority :=
  match firstSet (narrowNext input) with
  | some i => i ++ priOut (bitRange input i)
  | none => best

@[simp] lemma bestNext_priInNext (input : Priority → Bool) (priIn : BitVec 5 → Bool)
    (best : Priority) :
    bestNext (narrowNext input) (priInNext input (narrowNext input) priIn) best =
      search input best := by
  cases h : firstSet (narrowNext input) <;> simp [bestNext, priInNext, search, h]

lemma search_of_exists {input : Priority → Bool} (h : ∃ p, input p = true) (best : Priority) :
    firstSet input = some (search input best) := by
  obtain ⟨p, hp⟩ := h
  have hsplit : p = (p.extractLsb' 5 2 ++ p.setWidth 5 : BitVec (2 + 5)) := by
    apply BitVec.eq_of_getLsbD_eq
    intro b hb
    rw [BitVec.getLsbD_append]
    split
    · simp_all
    · simp_all
      grind
  rw [hsplit] at hp
  obtain ⟨c, hc⟩ := firstSet_of_exists (v := narrowNext input)
    ⟨p.extractLsb' 5 2, decide_eq_true ⟨p.setWidth 5, hp⟩⟩
  have hset := ((firstSet_eq_some_iff _ c).mp hc).1
  obtain ⟨j, hj⟩ := firstSet_of_exists (of_decide_eq_true hset)
  have hbest : search input best = c ++ j := by
    simp only [search, hc, priOut, hj, Option.getD_some]
  rw [hbest]
  exact firstSet_append (n := 2) (m := 5) input c j hc hj

end Encoder

end Hthreads.Scheduler
