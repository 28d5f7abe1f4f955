import Mathlib.Data.List.Basic
import Mathlib.Logic.Function.Basic
import Mathlib.Tactic
import Mathlib.Data.Multiset.Filter

/-! The descriptor sets, the callback arrays and the highest descriptor of the terminal
(`hinput.c`), and the registered callbacks that they stand for. Descriptors are those of an
`fd_set`, below `FD_SETSIZE`. -/

namespace Hthreads.Hterm

/-- The three kinds of events, each with its own set and its own array. -/
inductive Kind
  | read
  | write
  | except
  deriving DecidableEq

/-- One slot of a callback array; `call` is the callback with its data. -/
structure Slot (α : Type) where
  fd : ℤ
  del : ℤ
  call : Option α

structure Input (α : Type) where
  nfds : ℤ
  fds : Kind → ℕ → Bool
  calls : Kind → List (Slot α)

variable {α : Type}

namespace Slot

def free : Slot α := ⟨-1, 0, none⟩

def drop (e : Slot α) : Slot α := { e with fd := -1 }

end Slot

def find (callbacks : List (Slot α)) : Option ℕ := callbacks.findIdx? fun e => e.fd < 0

-- the first ten slots and every later extension come free
def resize (callbacks : List (Slot α)) : List (Slot α) := callbacks ++ List.replicate 10 .free

def higher (n : ℤ) (callbacks : List (Slot α)) : ℤ :=
  callbacks.foldl (fun n e => if e.fd > n then e.fd else n) n

namespace Input

def create : Input α := ⟨0, fun _ _ => false, fun _ => []⟩

def findhigh (s : Input α) : Input α :=
  let nfds := higher (higher (higher 0 (s.calls .read)) (s.calls .write)) (s.calls .except)
  { s with nfds := if nfds > 0 then nfds + 1 else nfds }

def setFd (k : Kind) (fd : ℕ) (b : Bool) (s : Input α) : Input α :=
  { s with fds := Function.update s.fds k (Function.update (s.fds k) fd b) }

def setCalls (k : Kind) (l : List (Slot α)) (s : Input α) : Input α :=
  { s with calls := Function.update s.calls k l }

/-- `hinput_read`, `hinput_write` and `hinput_except`. -/
def register (k : Kind) (fd : ℕ) (call : α) (s : Input α) : Input α :=
  let s := s.setFd k fd true
  let s := { s with nfds := if fd ≥ s.nfds then fd + 1 else s.nfds }
  match find (s.calls k) with
  | some free => s.setCalls k ((s.calls k).set free ⟨fd, 0, some call⟩)
  | none =>
    let s := s.setCalls k (resize (s.calls k))
    match find (s.calls k) with
    | some free => s.setCalls k ((s.calls k).set free ⟨fd, 0, some call⟩)
    | none => s

/-- `hinput_delread`, `hinput_delwrite` and `hinput_delexcept`. -/
def delete (k : Kind) (fd : ℕ) (s : Input α) : Input α :=
  let s := s.setFd k fd false
  let s := s.setCalls k ((s.calls k).map fun (e : Slot α) => if e.fd = fd then e.drop else e)
  s.findhigh

/-- What `select` reports, and what every callback answers in this round. -/
structure Round (α : Type) where
  ready : Kind → ℕ → Bool
  answer : Kind → ℕ → α → ℤ

def visitSlot (r : Round α) (k : Kind) (i : ℕ) (e : Slot α) : Slot α :=
  if e.fd = i then
    match e.call with
    | some c => { e with del := r.answer k i c }
    | none => e
  else e

def visit (r : Round α) (s : Input α) (i : ℕ) : Input α :=
  { s with calls := fun k =>
      if r.ready k i then (s.calls k).map (visitSlot r k i) else s.calls k }

def sweepSlot (k : Kind) (s : Input α) (i : ℕ) : Input α :=
  match (s.calls k)[i]? with
  | some e =>
    if e.fd ≥ 0 ∧ e.del ≠ 0 then
      ((s.setFd k e.fd.toNat false).setCalls k ((s.calls k).set i e.drop)).findhigh
    else s
  | none => s

def sweep (k : Kind) (s : Input α) : Input α :=
  (List.range (s.calls k).length).foldl (sweepSlot k) s

def select (r : Round α) (s : Input α) : Input α :=
  let s := (List.range s.nfds.toNat).foldl (visit r) s
  ((s.sweep .read).sweep .write).sweep .except

end Input

inductive Op (α : Type)
  | register (k : Kind) (fd : ℕ) (call : α)
  | delete (k : Kind) (fd : ℕ)
  | select (r : Input.Round α)

def Op.step (s : Input α) : Op α → Input α
  | .register k fd call => s.register k fd call
  | .delete k fd => s.delete k fd
  | .select r => s.select r

def Input.run (s : Input α) (ops : List (Op α)) : Input α := ops.foldl Op.step s

/-- The registrations of each kind, every one counted as often as it was made. The callbacks
may carry whatever tells two of them apart. -/
abbrev Registry (α : Type) : Type := Kind → Multiset (ℕ × α)

namespace Registry

def empty : Registry α := fun _ => 0

def Registered (R : Registry α) (k : Kind) (fd : ℕ) : Prop := ∃ c, (fd, c) ∈ R k

def Asks (r : Input.Round α) (k : Kind) (e : ℕ × α) : Prop :=
  r.ready k e.1 = true ∧ r.answer k e.1 e.2 ≠ 0

open scoped Classical in
noncomputable def step (R : Registry α) : Op α → Registry α
  | .register k fd call => Function.update R k ((fd, call) ::ₘ R k)
  | .delete k fd => Function.update R k ((R k).filter fun e => e.1 ≠ fd)
  | .select r => fun k => (R k).filter fun e => ¬ Asks r k e

noncomputable def run (R : Registry α) (ops : List (Op α)) : Registry α := ops.foldl step R

-- one more than the largest registered descriptor, or zero
def High (R : Registry α) (n : ℤ) : Prop :=
  (∀ k fd, R.Registered k fd → (fd : ℤ) < n) ∧
    (n = 0 ∨ ∃ k fd, R.Registered k fd ∧ (fd : ℤ) + 1 = n)

end Registry

def Slot.live (e : Slot α) : Option (ℕ × α) :=
  if e.fd < 0 then none else e.call.map fun c => (e.fd.toNat, c)

def live (l : List (Slot α)) : Multiset (ℕ × α) := ↑(l.filterMap Slot.live)

structure Consistent (s : Input α) (R : Registry α) : Prop where
  calls : ∀ k, live (s.calls k) = R k
  bits : ∀ k fd, s.fds k fd = true ↔ R.Registered k fd
  high : R.High s.nfds

structure Slot.Settled (e : Slot α) : Prop where
  del : e.del = 0
  call : e.call.isSome = true

/-- Between operations no callback in use is marked for removal. -/
structure Sound (s : Input α) (R : Registry α) : Prop extends Consistent s R where
  settled : ∀ k, ∀ e ∈ s.calls k, 0 ≤ e.fd → e.Settled

section Slots

variable {l : List (Slot α)} {e : Slot α} {fd : ℕ} {c : α} {n : ℤ}

lemma Slot.live_eq_some_iff : e.live = some (fd, c) ↔ e.fd = fd ∧ e.call = some c := by
  rw [Slot.live]
  constructor
  · intro h
    split at h
    case isTrue => exact absurd h (by simp)
    case isFalse hpos =>
      obtain ⟨c', hc, heq⟩ := Option.map_eq_some_iff.mp h
      obtain ⟨rfl, rfl⟩ := Prod.mk.injEq .. ▸ heq
      exact ⟨by omega, hc⟩
  · rintro ⟨hfd, hc⟩
    rw [if_neg (by omega), hc, Option.map_some, hfd, Int.toNat_natCast]

lemma Slot.live_drop : e.drop.live = none := if_pos (show (-1 : ℤ) < 0 by decide)

lemma mem_live_iff : (fd, c) ∈ live l ↔ ∃ e ∈ l, e.fd = fd ∧ e.call = some c := by
  rw [live, Multiset.mem_coe, List.mem_filterMap]
  simp only [Slot.live_eq_some_iff]

lemma le_higher : n ≤ higher n l := by
  induction l generalizing n with
  | nil => exact le_refl n
  | cons e l ih =>
    rw [higher, List.foldl_cons]
    refine le_trans ?_ ih
    split
    all_goals omega

lemma le_higher_of_mem (he : e ∈ l) : e.fd ≤ higher n l := by
  induction l generalizing n with
  | nil => exact absurd he List.not_mem_nil
  | cons e' l ih =>
    rw [higher, List.foldl_cons]
    rcases List.mem_cons.mp he with rfl | he
    · refine le_trans ?_ le_higher
      split
      all_goals omega
    · exact ih he

lemma higher_mem : higher n l = n ∨ ∃ e ∈ l, e.fd = higher n l := by
  induction l generalizing n with
  | nil => exact Or.inl rfl
  | cons e l ih =>
    rw [higher, List.foldl_cons]
    rcases ih (n := if e.fd > n then e.fd else n) with h | ⟨e', he', h⟩
    · rw [higher] at h
      by_cases hgt : e.fd > n
      · rw [if_pos hgt] at h ⊢
        exact Or.inr ⟨e, List.mem_cons_self, h.symm⟩
      · rw [if_neg hgt] at h ⊢
        exact Or.inl h
    · exact Or.inr ⟨e', List.mem_cons_of_mem _ he', h⟩

lemma live_resize : live (resize l) = live l := by
  have hfree : (Slot.free : Slot α).live = none := if_pos (show (-1 : ℤ) < 0 by decide)
  rw [live, resize, List.filterMap_append, List.filterMap_replicate_of_none hfree, List.append_nil]
  rfl

lemma find_resize : ∃ i, find (resize l) = some i := by
  apply Option.isSome_iff_exists.mp
  rw [find, List.findIdx?_isSome, List.any_eq_true]
  refine ⟨.free, List.mem_append_right _ (List.mem_replicate.mpr ⟨by decide, rfl⟩), ?_⟩
  exact decide_eq_true (show (-1 : ℤ) < 0 by decide)

lemma live_set {i : ℕ} (h : find l = some i) (he : e.fd = fd) (hc : e.call = some c) :
    live (l.set i e) = (fd, c) ::ₘ live l := by
  obtain ⟨hi, hneg, -⟩ := List.findIdx?_eq_some_iff_getElem.mp h
  have hfree : l[i].live = none := if_pos (of_decide_eq_true hneg)
  have hsplit : l = l.take i ++ l[i] :: l.drop (i + 1) := by
    rw [List.getElem_cons_drop, List.take_append_drop]
  have hlive : live l =
    ↑((l.take i).filterMap Slot.live ++ (l.drop (i + 1)).filterMap Slot.live) := by
    conv_lhs => rw [hsplit]
    rw [live, List.filterMap_append, List.filterMap_cons, hfree]
  rw [hlive, live, List.set_eq_take_append_cons_drop, if_pos hi, List.filterMap_append,
    List.filterMap_cons, Slot.live_eq_some_iff.mpr ⟨he, hc⟩, Multiset.cons_coe]
  exact Multiset.coe_eq_coe.mpr List.perm_middle

lemma mem_resize (he : e ∈ resize l) : e ∈ l ∨ e.fd < 0 := by
  rcases List.mem_append.mp he with he | he
  · exact Or.inl he
  · rw [List.eq_of_mem_replicate he]
    exact Or.inr (show (-1 : ℤ) < 0 by decide)

lemma live_map_drop (p : Slot α → Bool) (q : ℕ × α → Prop) [DecidablePred q]
    (h : ∀ e ∈ l, ∀ x, e.live = some x → (p e = true ↔ ¬ q x)) :
    live (l.map fun e => if p e then e.drop else e) = (live l).filter q := by
  induction l with
  | nil => rfl
  | cons e l ih =>
    have htail := ih fun e' he' => h e' (List.mem_cons_of_mem e he')
    have hcons : ∀ (e : Slot α) (l : List (Slot α)),
        live (e :: l) = (↑e.live.toList : Multiset (ℕ × α)) + live l := by
      intro e l
      rw [live, List.filterMap_cons]
      cases e.live <;> rfl
    rw [List.map_cons, hcons, hcons, Multiset.filter_add, htail]
    congr 1
    cases hx : e.live with
    | none =>
      have hd : (if p e = true then e.drop else e).live = none := by
        split
        · exact Slot.live_drop
        · exact hx
      rw [hd]
      rfl
    | some x =>
      have hq := h e List.mem_cons_self x hx
      have hsingle : Multiset.filter q ↑(some x).toList = if q x then {x} else ∅ :=
        Multiset.filter_singleton q
      rw [hsingle]
      by_cases hp : p e = true
      · rw [if_pos hp, if_neg (hq.mp hp), Slot.live_drop]
        rfl
      · rw [if_neg hp, hx, if_pos (not_not.mp fun hno => hp (hq.mpr hno))]
        rfl

end Slots

namespace Input

variable {s : Input α} {k : Kind} {fd : ℕ} {call : α} {e : Slot α}

def highest (s : Input α) : ℤ :=
  higher (higher (higher 0 (s.calls .read)) (s.calls .write)) (s.calls .except)

lemma findhigh_nfds : s.findhigh.nfds = if s.highest > 0 then s.highest + 1 else s.highest := rfl

lemma highest_nonneg (s : Input α) : 0 ≤ s.highest :=
  le_trans le_higher (le_trans le_higher le_higher)

lemma le_highest (he : e ∈ s.calls k) : e.fd ≤ s.highest := by
  cases k with
  | read => exact le_trans (le_higher_of_mem he) (le_trans le_higher le_higher)
  | write => exact le_trans (le_higher_of_mem he) le_higher
  | except => exact le_higher_of_mem he

lemma highest_mem (s : Input α) : s.highest = 0 ∨ ∃ k, ∃ e ∈ s.calls k, e.fd = s.highest := by
  rcases higher_mem (n := higher (higher 0 (s.calls .read)) (s.calls .write))
    (l := s.calls .except) with hx | ⟨e, he, hx⟩
  · rcases higher_mem (n := higher 0 (s.calls .read)) (l := s.calls .write) with hw | ⟨e, he, hw⟩
    · rcases higher_mem (n := 0) (l := s.calls .read) with hr | ⟨e, he, hr⟩
      · exact Or.inl (hx.trans (hw.trans hr))
      · exact Or.inr ⟨.read, e, he, hr.trans (hx.trans hw).symm⟩
    · exact Or.inr ⟨.write, e, he, hw.trans hx.symm⟩
  · exact Or.inr ⟨.except, e, he, hx⟩

lemma register_cases (s : Input α) (k : Kind) (fd : ℕ) (call : α) : ∃ l i,
    (l = s.calls k ∨ l = resize (s.calls k)) ∧ find l = some i ∧ s.register k fd call =
      { nfds := if fd ≥ s.nfds then fd + 1 else s.nfds
        fds := Function.update s.fds k (Function.update (s.fds k) fd true)
        calls := Function.update s.calls k (l.set i ⟨fd, 0, some call⟩) } := by
  cases hf : find (s.calls k) with
  | some i =>
    refine ⟨s.calls k, i, Or.inl rfl, hf, ?_⟩
    simp only [register, setFd, hf]
    rfl
  | none =>
    obtain ⟨i, hi⟩ := find_resize (l := s.calls k)
    refine ⟨resize (s.calls k), i, Or.inr rfl, hi, ?_⟩
    simp only [register, setFd, hf, setCalls, Function.update_self, hi, Function.update_idem]
    rfl

end Input

namespace Registry

-- descriptor 0 is not the largest one registered
def AboveZero (R : Registry α) : Prop :=
  (∀ k, ¬ R.Registered k 0) ∨ ∃ k fd, 0 < fd ∧ R.Registered k fd

/-- A removal does not leave descriptor 0 as the largest, and a round removes all the callbacks
of a kind on a descriptor or none. -/
def Harmless (R : Registry α) : Op α → Prop
  | .register _ _ _ => True
  | .delete k fd => (R.step (.delete k fd)).AboveZero
  | .select r =>
    (∀ k, ∀ e ∈ R k, Asks r k e → ∀ e' ∈ R k, e'.1 = e.1 → Asks r k e') ∧
      ((∃ k, ∃ e ∈ R k, Asks r k e) → (R.step (.select r)).AboveZero)

def Allowed (R : Registry α) : List (Op α) → Prop
  | [] => True
  | op :: ops => R.Harmless op ∧ (R.step op).Allowed ops

end Registry

section Steps

variable {s : Input α} {R : Registry α} {k : Kind} {fd : ℕ} {c : α} {r : Input.Round α}

lemma registered_iff (hcalls : ∀ k, live (s.calls k) = R k)
    (hcall : ∀ k, ∀ e ∈ s.calls k, 0 ≤ e.fd → e.call.isSome = true) :
    R.Registered k fd ↔ ∃ e ∈ s.calls k, e.fd = fd := by
  rw [Registry.Registered, ← hcalls]
  simp only [mem_live_iff]
  constructor
  · rintro ⟨c, e, he, hfd, -⟩
    exact ⟨e, he, hfd⟩
  · rintro ⟨e, he, hfd⟩
    obtain ⟨c, hc⟩ := Option.isSome_iff_exists.mp (hcall k e he (by omega))
    exact ⟨c, e, he, hfd, hc⟩

lemma findhigh_high (hcalls : ∀ k, live (s.calls k) = R k)
    (hcall : ∀ k, ∀ e ∈ s.calls k, 0 ≤ e.fd → e.call.isSome = true) (h : R.AboveZero) :
    R.High s.findhigh.nfds := by
  have hzero := s.highest_nonneg
  have hle : ∀ k fd, R.Registered k fd → (fd : ℤ) ≤ s.highest := by
    intro k fd hfd
    obtain ⟨e, he, heq⟩ := (registered_iff hcalls hcall).mp hfd
    exact heq ▸ Input.le_highest he
  rw [Input.findhigh_nfds]
  by_cases hpos : s.highest > 0
  · rw [if_pos hpos]
    refine ⟨fun k fd hfd => Int.lt_add_one_of_le (hle k fd hfd), Or.inr ?_⟩
    obtain ⟨k, e, he, heq⟩ := s.highest_mem.resolve_left (ne_of_gt hpos)
    have hnat : e.fd = (e.fd.toNat : ℤ) := by omega
    exact ⟨k, e.fd.toNat, (registered_iff hcalls hcall).mpr ⟨e, he, hnat⟩, by omega⟩
  · rw [if_neg hpos]
    have hall : ∀ k fd, R.Registered k fd → fd = 0 := by
      intro k fd hfd
      have := hle k fd hfd
      omega
    have hnone : ∀ k fd, ¬ R.Registered k fd := by
      intro k fd hfd
      rcases h with hno | ⟨k', fd', hpos', hfd'⟩
      · rw [hall k fd hfd] at hfd
        exact hno k hfd
      · exact absurd (hall k' fd' hfd') (Nat.pos_iff_ne_zero.mp hpos')
    exact ⟨fun k fd hfd => absurd hfd (hnone k fd), Or.inl (by omega)⟩

lemma Sound.register (h : Sound s R) : Sound (s.register k fd c) (R.step (.register k fd c)) := by
  obtain ⟨l, i, hl, hi, heq⟩ := s.register_cases k fd c
  have hlive : live l = R k := by
    rw [← h.calls k]
    rcases hl with rfl | rfl
    · rfl
    · exact live_resize
  have hstep : R.step (.register k fd c) = Function.update R k ((fd, c) ::ₘ R k) := rfl
  have hreg : ∀ k' fd', (R.step (.register k fd c)).Registered k' fd' ↔
      (k' = k ∧ fd' = fd) ∨ R.Registered k' fd' := by
    intro k' fd'
    rw [hstep, Registry.Registered, Registry.Registered]
    by_cases hk : k' = k
    · subst hk
      simp only [Function.update_self, Multiset.mem_cons, Prod.mk.injEq]
      aesop
    · simp only [Function.update_of_ne hk, hk, false_and, false_or]
  rw [heq]
  refine ⟨⟨fun k' => ?_, fun k' fd' => ?_, ?_⟩, fun k' e he hpos => ?_⟩
  · rw [hstep]
    by_cases hk : k' = k
    · subst hk
      simp only [Function.update_self]
      have hset : live (l.set i ⟨fd, 0, some c⟩) = (fd, c) ::ₘ live l := live_set hi rfl rfl
      rw [hset, hlive]
    · simp only [Function.update_of_ne hk]
      exact h.calls k'
  · rw [hreg, ← h.bits]
    by_cases hk : k' = k
    · subst hk
      simp only [Function.update_self, true_and]
      by_cases hfd : fd' = fd
      · subst hfd
        simp only [Function.update_self, true_or]
      · simp only [Function.update_of_ne hfd, hfd, false_or]
    · simp only [Function.update_of_ne hk, hk, false_and, false_or]
  · obtain ⟨hlt, htop⟩ := h.high
    refine ⟨fun k' fd' hfd' => ?_, ?_⟩
    · rcases (hreg k' fd').mp hfd' with ⟨-, rfl⟩ | hold
      · simp only
        split
        all_goals omega
      · have := hlt k' fd' hold
        simp only
        split
        all_goals omega
    · by_cases hge : (fd : ℤ) ≥ s.nfds
      · exact Or.inr ⟨k, fd, (hreg k fd).mpr (Or.inl ⟨rfl, rfl⟩), (if_pos hge).symm⟩
      · simp only [if_neg hge]
        refine htop.imp_right ?_
        rintro ⟨k', fd', hfd', heq'⟩
        exact ⟨k', fd', (hreg k' fd').mpr (Or.inr hfd'), heq'⟩
  · by_cases hk : k' = k
    · subst hk
      simp only [Function.update_self] at he
      rcases List.mem_or_eq_of_mem_set he with hmem | rfl
      · have hold : e ∈ s.calls k' := by
          rcases hl with rfl | rfl
          · exact hmem
          · exact (mem_resize hmem).resolve_right (by omega)
        exact h.settled k' e hold hpos
      · exact ⟨rfl, rfl⟩
    · simp only [Function.update_of_ne hk] at he
      exact h.settled k' e he hpos

lemma Sound.delete (h : Sound s R) (hR : R.Harmless (.delete k fd)) :
    Sound (s.delete k fd) (R.step (.delete k fd)) := by
  classical
  have hcalls : (s.delete k fd).calls = Function.update s.calls k
      ((s.calls k).map fun (e : Slot α) => if e.fd = fd then e.drop else e) := rfl
  have hfds : (s.delete k fd).fds =
      Function.update s.fds k (Function.update (s.fds k) fd false) := rfl
  have hsettled : ∀ k', ∀ e ∈ (s.delete k fd).calls k', 0 ≤ e.fd → e.Settled := by
    intro k' e he hpos
    rw [hcalls] at he
    by_cases hk : k' = k
    · subst hk
      rw [Function.update_self] at he
      obtain ⟨e', he', rfl⟩ := List.mem_map.mp he
      split at hpos
      case isTrue => exact absurd hpos (show ¬ (0 : ℤ) ≤ -1 by decide)
      case isFalse hne =>
        rw [if_neg hne]
        exact h.settled k' e' he' hpos
    · rw [Function.update_of_ne hk] at he
      exact h.settled k' e he hpos
  have hlive : ∀ k', live ((s.delete k fd).calls k') = R.step (.delete k fd) k' := by
    intro k'
    rw [hcalls, Registry.step]
    by_cases hk : k' = k
    · subst hk
      rw [Function.update_self, Function.update_self, ← h.calls k']
      have hdrop := live_map_drop (l := s.calls k') (fun e => decide (e.fd = fd))
        (fun e => e.1 ≠ fd) fun e _ x hx => by
          obtain ⟨hfd, -⟩ := Slot.live_eq_some_iff.mp hx
          rw [decide_eq_true_eq, hfd, not_not]
          exact Int.natCast_inj
      simpa only [decide_eq_true_eq] using hdrop
    · rw [Function.update_of_ne hk, Function.update_of_ne hk]
      exact h.calls k'
  refine ⟨⟨hlive, fun k' fd' => ?_, ?_⟩, hsettled⟩
  · rw [hfds, Registry.Registered, Registry.step]
    by_cases hk : k' = k
    · subst hk
      rw [Function.update_self, Function.update_self]
      simp only [Multiset.mem_filter, exists_and_right]
      by_cases hfd : fd' = fd
      · subst hfd
        simp only [Function.update_self, Bool.false_eq_true, ne_eq, not_true_eq_false, and_false]
      · simp only [Function.update_of_ne hfd, ne_eq, hfd, not_false_eq_true, and_true]
        exact h.bits k' fd'
    · rw [Function.update_of_ne hk, Function.update_of_ne hk]
      exact h.bits k' fd'
  · exact findhigh_high (s := s.delete k fd) hlive
      (fun k e he hpos => (hsettled k e he hpos).call) hR

end Steps

end Hthreads.Hterm
