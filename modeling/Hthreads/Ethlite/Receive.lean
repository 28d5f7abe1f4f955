import Hthreads.Ethlite.Driver

/-! Frames that arrive while `ethlite_recv` polls the two receive buffers and copies from them. -/

namespace Hthreads.Ethlite

open Library

/-- The places of `ethlite_recv` between two accesses. -/
inductive Place
  | idle
  | poll0
  | poll1
  | choose
  | header (b : Bool)
  | payload (b : Bool)
  | ack (b : Bool)
  deriving DecidableEq

/-- A frame given back to the caller, with the number of data bytes that were written. -/
structure Delivered where
  frame : Bytes
  count : ℕ

/-- The controller fills buffer `next`; `full` are the two status bits. `arrived` lists what the
buffers held when their frames were complete, `delivered` what the calls gave back. -/
structure Reception where
  buffer : Bool → Bytes
  full : Bool → Bool
  next : Bool
  place : Place
  frame : Bytes
  arrived : List Bytes
  delivered : List Delivered

namespace Reception

def initial (buffer : Bool → Bytes) (next : Bool) : Reception where
  buffer := buffer
  full _ := false
  next := next
  place := .idle
  frame _ := 0
  arrived := []
  delivered := []

def length (s : Reception) : ℕ := (s.frame.load16 12).toNat

def chosen (s : Reception) : Bool := if !s.full false then true else false

-- `around` is the memory that the payload is copied from: the pointer to the first buffer's
-- pointer is advanced, not the pointer to the buffer
def driver (around : Bytes) (s : Reception) : Reception :=
  match s.place with
  | .idle => s
  | .poll0 => { s with place := if !s.full false then .poll1 else .choose }
  | .poll1 => { s with place := if !s.full true then .poll0 else .choose }
  | .choose => { s with place := .header s.chosen }
  | .header b =>
    { s with
      place := .payload b
      frame := fun i => if i < 14 then s.buffer b i else s.frame i }
  | .payload b =>
    { s with
      place := .ack b
      frame := fun i => if 14 ≤ i ∧ i < 14 + s.length then around (i - 14) else s.frame i }
  | .ack b =>
    { s with
      place := .idle
      full := Function.update s.full b false
      delivered := s.delivered ++ [⟨s.frame, s.length⟩] }

inductive Event
  | receiving (frame : List Byte)
  | complete
  | call (frame : Bytes)
  | driver (around : Bytes)

-- while the status bit of its next buffer is set the controller drops what arrives
def step (s : Reception) : Event → Reception
  | .receiving frame =>
    if s.full s.next then s
    else { s with buffer := Function.update s.buffer s.next
                    fun i => frame[i]?.getD (s.buffer s.next i) }
  | .complete =>
    if s.full s.next then s
    else
      { s with
        full := Function.update s.full s.next true
        next := !s.next
        arrived := s.arrived ++ [s.buffer s.next] }
  | .call frame => if s.place = .idle then { s with place := .poll0, frame := frame } else s
  | .driver around => s.driver around

def run (s : Reception) (events : List Event) : Reception := events.foldl step s

/-- The pong buffer is not passed over for a newer frame, and the memory behind the driver's
record holds the payload, which fits the frame structure. -/
def Harmless (s : Reception) : Event → Prop
  | .driver around =>
    match s.place with
    | .choose => ¬ (s.full false = true ∧ s.full true = true ∧ s.next = true)
    | .payload b => s.length ≤ 1500 ∧ ∀ i < s.length, around i = s.buffer b (14 + i)
    | _ => True
  | _ => True

def Allowed (s : Reception) : List Event → Prop
  | [] => True
  | e :: events => s.Harmless e ∧ (s.step e).Allowed events

end Reception

structure Delivered.Holds (d : Delivered) (b : Bytes) : Prop where
  header : ∀ i < 14, d.frame i = b i
  count : d.count = (b.load16 12).toNat ∧ d.count ≤ 1500
  payload : ∀ i < d.count, d.frame (14 + i) = b (14 + i)

namespace Reception

-- the buffers with frames that were not given back, the oldest first
def waiting (s : Reception) : List Bool :=
  if s.full s.next then [s.next, !s.next] else if s.full (!s.next) then [!s.next] else []

-- what the driver knows at each place
def Knows (s : Reception) : Place → Prop
  | .choose => s.waiting ≠ []
  | .header b => s.waiting.head? = some b
  | .payload b => s.waiting.head? = some b ∧ ∀ i < 14, s.frame i = s.buffer b i
  | .ack b => s.waiting.head? = some b ∧ Delivered.Holds ⟨s.frame, s.length⟩ (s.buffer b)
  | _ => True

structure Ordered (s : Reception) : Prop where
  both : s.full s.next = true → s.full (!s.next) = true
  split : ∃ given, s.arrived = given ++ s.waiting.map s.buffer ∧
    List.Forall₂ Delivered.Holds s.delivered given
  knows : s.Knows s.place

variable {s : Reception} {frame : List Byte} {around : Bytes} {events : List Event}

lemma ordered_initial (buffer : Bool → Bytes) (next : Bool) : (initial buffer next).Ordered where
  both h := Bool.noConfusion h
  split := ⟨[], rfl, List.Forall₂.nil⟩
  knows := trivial

lemma mem_waiting {b : Bool} (h : b ∈ s.waiting) : s.full b = true ∨ b = !s.next := by
  rw [waiting] at h
  split at h
  case isTrue hfull =>
    rcases List.mem_cons.mp h with rfl | h
    · exact Or.inl hfull
    · exact Or.inr (List.mem_singleton.mp h)
  case isFalse =>
    split at h
    · exact Or.inr (List.mem_singleton.mp h)
    · exact absurd h List.not_mem_nil

lemma mem_waiting_of_full {b : Bool} (h : s.full b = true) : b ∈ s.waiting := by
  rw [waiting]
  rcases Bool.eq_or_eq_not b s.next with rfl | rfl
  · rw [if_pos h]
    exact List.mem_cons_self
  · rw [if_pos h]
    split
    · exact List.mem_cons_of_mem _ List.mem_cons_self
    · exact List.mem_cons_self

lemma Knows.congr {t : Reception} (hwait : ∀ b, s.waiting.head? = some b → t.waiting.head? = some b)
    (hne : s.waiting ≠ [] → t.waiting ≠ []) (hframe : t.frame = s.frame)
    (hbuffer : ∀ b ∈ s.waiting, t.buffer b = s.buffer b) {place : Place} (h : s.Knows place) :
    t.Knows place := by
  have hlength : t.length = s.length := by
    rw [length, length, hframe]
  cases place with
  | idle => trivial
  | poll0 => trivial
  | poll1 => trivial
  | choose => exact hne h
  | header b => exact hwait b h
  | payload b =>
    obtain ⟨hhead, hcopy⟩ := h
    refine ⟨hwait b hhead, fun i hi => ?_⟩
    rw [hframe, hbuffer b (List.mem_of_head? hhead)]
    exact hcopy i hi
  | ack b =>
    obtain ⟨hhead, hholds⟩ := h
    refine ⟨hwait b hhead, ?_⟩
    rw [hframe, hlength, hbuffer b (List.mem_of_head? hhead)]
    exact hholds

lemma Ordered.receiving (h : s.Ordered) : (s.step (.receiving frame)).Ordered := by
  rw [step]
  split
  case isTrue => exact h
  case isFalse hfree =>
    have hbuffer : ∀ b ∈ s.waiting, Function.update s.buffer s.next
        (fun i => frame[i]?.getD (s.buffer s.next i)) b = s.buffer b := by
      intro b hb
      apply Function.update_of_ne
      rintro rfl
      rcases mem_waiting hb with hfull | hne
      · exact hfree hfull
      · exact Bool.not_ne_self _ hne.symm
    obtain ⟨given, harrived, hgiven⟩ := h.split
    refine ⟨h.both, ⟨given, ?_, hgiven⟩, ?_⟩
    · rw [harrived]
      exact congrArg (given ++ ·) (List.map_congr_left fun b hb => (hbuffer b hb).symm)
    · apply Knows.congr (s := s) _ _ _ hbuffer h.knows
      · exact fun b hb => hb
      · exact id
      · rfl

lemma step_complete (hfree : s.full s.next = false) : s.step .complete = { s with
    full := Function.update s.full s.next true
    next := !s.next
    arrived := s.arrived ++ [s.buffer s.next] } := by
  rw [step, if_neg (by rw [hfree]; exact Bool.false_ne_true)]

lemma waiting_complete (hfree : s.full s.next = false) :
    (s.step .complete).waiting = s.waiting ++ [s.next] := by
  rw [step_complete hfree]
  simp only [waiting, hfree, Bool.not_not, Function.update_self, if_true, Bool.false_eq_true,
    if_false, Function.update_of_ne (Bool.not_ne_self s.next)]
  split
  · rfl
  · rfl

lemma Ordered.complete (h : s.Ordered) : (s.step .complete).Ordered := by
  cases hfree : s.full s.next with
  | true =>
    rw [step, if_pos hfree]
    exact h
  | false =>
    have hwait := waiting_complete hfree
    have hstep := step_complete hfree
    obtain ⟨given, harrived, hgiven⟩ := h.split
    refine ⟨fun _ => ?_, ⟨given, ?_, ?_⟩, ?_⟩
    · rw [hstep]
      change Function.update s.full s.next true (!!s.next) = true
      rw [Bool.not_not, Function.update_self]
    · rw [hwait, hstep]
      change s.arrived ++ [s.buffer s.next] = given ++ (s.waiting ++ [s.next]).map s.buffer
      rw [harrived, List.map_append, List.append_assoc]
      rfl
    · rw [hstep]
      exact hgiven
    · have hplace : (s.step .complete).place = s.place := by rw [hstep]
      rw [hplace]
      apply Knows.congr _ _ (by rw [hstep]) (fun b _ => by rw [hstep]) h.knows
      · intro b hb
        rw [hwait, List.head?_append, hb, Option.some_or]
      · intro _
        rw [hwait]
        exact List.append_ne_nil_of_right_ne_nil _ (List.cons_ne_nil _ _)

lemma Ordered.call {f : Bytes} (h : s.Ordered) : (s.step (.call f)).Ordered := by
  rw [step]
  split
  · exact ⟨h.both, h.split, trivial⟩
  · exact h

lemma Ordered.poll {b : Bool} {place place' : Place} (h : s.Ordered) (hplace : s.Knows place)
    (hplace' : s.full b = true → s.Knows place') :
    Ordered { s with place := if !s.full b then place else place' } := by
  refine ⟨h.both, h.split, ?_⟩
  change s.Knows (if !s.full b then place else place')
  cases hb : s.full b with
  | true => exact hplace' hb
  | false => exact hplace

lemma head_waiting_chosen (h : s.Ordered) (hne : s.waiting ≠ [])
    (hold : ¬ (s.full false = true ∧ s.full true = true ∧ s.next = true)) :
    s.waiting.head? = some s.chosen := by
  have hboth := h.both
  rw [waiting] at hne ⊢
  rw [chosen]
  cases hn : s.next
  all_goals
    cases h0 : s.full false
  all_goals
    cases h1 : s.full true
  all_goals
    simp_all

def copyPayload (around : Bytes) (s : Reception) : Bytes :=
  fun i => if 14 ≤ i ∧ i < 14 + s.length then around (i - 14) else s.frame i

lemma waiting_ack {b : Bool} (h : s.Ordered) (hhead : s.waiting.head? = some b) :
    s.waiting = b :: waiting { s with full := Function.update s.full b false } := by
  have hboth := h.both
  rw [waiting] at hhead
  by_cases hfull : s.full s.next = true
  · rw [if_pos hfull] at hhead
    obtain rfl := Option.some.inj hhead
    have hother := hboth hfull
    simp only [waiting, hfull, if_true, Function.update_self, Bool.false_eq_true, if_false,
      Function.update_of_ne (Bool.not_ne_self s.next), hother]
  · rw [if_neg hfull] at hhead
    split at hhead
    case isTrue hother =>
      obtain rfl := Option.some.inj hhead
      simp only [waiting, hfull, if_false, hother, if_true, Function.update_self,
        Function.update_of_ne (Bool.not_ne_self s.next).symm, Bool.false_eq_true]
    case isFalse => exact absurd hhead.symm (Option.some_ne_none b)

lemma Ordered.driver (h : s.Ordered) (hok : s.Harmless (.driver around)) :
    (s.driver around).Ordered := by
  have hknows := h.knows
  cases hp : s.place with
  | idle =>
    rw [Reception.driver, hp]
    exact h
  | poll0 =>
    rw [Reception.driver, hp]
    exact h.poll trivial fun hb => List.ne_nil_of_mem (mem_waiting_of_full hb)
  | poll1 =>
    rw [Reception.driver, hp]
    exact h.poll trivial fun hb => List.ne_nil_of_mem (mem_waiting_of_full hb)
  | choose =>
    rw [Harmless, hp] at hok
    rw [hp] at hknows
    have hchosen := head_waiting_chosen h hknows hok
    rw [Reception.driver, hp]
    exact ⟨h.both, h.split, hchosen⟩
  | header b =>
    rw [hp] at hknows
    rw [Reception.driver, hp]
    exact ⟨h.both, h.split, hknows, fun i hi => if_pos hi⟩
  | payload b =>
    rw [Harmless, hp] at hok
    rw [hp] at hknows
    obtain ⟨hlength, hmemory⟩ := hok
    obtain ⟨hhead, hcopy⟩ := hknows
    have hkeep : ∀ i < 14, (copyPayload around s) i = s.frame i := fun i hi =>
      if_neg fun hin => absurd hin.1 (Nat.not_le.mpr hi)
    have hlength' : ((copyPayload around s).load16 12).toNat = s.length := by
      rw [length, Bytes.load16, Bytes.load16, hkeep 12 (by decide), hkeep 13 (by decide)]
    rw [Reception.driver, hp]
    refine ⟨h.both, h.split, hhead, ?_, ?_, fun i hi => ?_⟩
    · exact fun i hi => (hkeep i hi).trans (hcopy i hi)
    · refine ⟨?_, hlength'.trans_le hlength⟩
      change ((copyPayload around s).load16 12).toNat = _
      rw [hlength', length, Bytes.load16, Bytes.load16, hcopy 12 (by decide),
        hcopy 13 (by decide)]
    · have hi' : i < s.length := hlength' ▸ hi
      change copyPayload around s (14 + i) = _
      rw [copyPayload, if_pos ⟨Nat.le_add_right 14 i, by omega⟩, Nat.add_sub_cancel_left]
      exact hmemory i hi'
  | ack b =>
    rw [hp] at hknows
    obtain ⟨hhead, hholds⟩ := hknows
    obtain ⟨given, harrived, hgiven⟩ := h.split
    have hwait := waiting_ack h hhead
    rw [Reception.driver, hp]
    refine ⟨fun hfull => ?_, ⟨given ++ [s.buffer b], ?_, ?_⟩, trivial⟩
    · change Function.update s.full b false s.next = true at hfull
      change Function.update s.full b false (!s.next) = true
      rcases Bool.eq_or_eq_not b s.next with rfl | rfl
      · rw [Function.update_self] at hfull
        exact Bool.noConfusion hfull
      · rw [Function.update_of_ne (Bool.not_ne_self s.next).symm] at hfull
        rw [waiting, if_pos hfull] at hhead
        exact absurd (Option.some.inj hhead).symm (Bool.not_ne_self s.next)
    · rw [harrived, hwait, List.map_cons, List.append_assoc]
      rfl
    · exact List.rel_append hgiven (List.Forall₂.cons hholds List.Forall₂.nil)

lemma Ordered.step {e : Event} (h : s.Ordered) (hok : s.Harmless e) : (s.step e).Ordered := by
  cases e with
  | receiving frame => exact h.receiving
  | complete => exact h.complete
  | call f => exact h.call
  | driver around => exact h.driver hok

lemma Ordered.run (h : s.Ordered) (hok : s.Allowed events) : (s.run events).Ordered := by
  induction events generalizing s with
  | nil => exact h
  | cons e events ih => exact ih (h.step hok.1) hok.2

-- how many steps a call still takes when a frame is waiting
def rank (s : Reception) : ℕ :=
  match s.place with
  | .idle => 0
  | .ack _ => 1
  | .payload _ => 2
  | .header _ => 3
  | .choose => 4
  | .poll0 => if s.full false then 5 else 6
  | .poll1 => if s.full true then 5 else 6

def Event.isDriver : Event → Bool
  | .driver _ => true
  | _ => false

lemma full_of_waiting (hwait : s.waiting ≠ []) : s.full false = true ∨ s.full true = true := by
  rw [waiting] at hwait
  cases hn : s.next
  all_goals
    cases h0 : s.full false
  all_goals
    cases h1 : s.full true
  all_goals
    simp_all

lemma step_of_not_driver {e : Event} (he : e.isDriver = false) (hplace : s.place ≠ .idle)
    (hwait : s.waiting ≠ []) : (s.step e).place = s.place ∧ (s.step e).waiting ≠ [] ∧
      (s.step e).rank ≤ s.rank ∧ (s.step e).delivered = s.delivered := by
  cases e with
  | receiving frame =>
    rw [step]
    split
    · exact ⟨rfl, hwait, le_refl _, rfl⟩
    · exact ⟨rfl, hwait, le_refl _, rfl⟩
  | complete =>
    cases hfree : s.full s.next with
    | true =>
      rw [step, if_pos hfree]
      exact ⟨rfl, hwait, le_refl _, rfl⟩
    | false =>
      have hnew : (s.step .complete).waiting ≠ [] := by
        rw [waiting_complete hfree]
        exact List.append_ne_nil_of_right_ne_nil _ (List.cons_ne_nil _ _)
      have hstep := step_complete hfree
      have hmono : ∀ b, s.full b = true → Function.update s.full s.next true b = true := by
        intro b hb
        rw [Function.update_apply]
        split
        · rfl
        · exact hb
      refine ⟨by rw [hstep], hnew, ?_, by rw [hstep]⟩
      rw [hstep, rank, rank]
      cases s.place with
      | poll0 =>
        dsimp only
        by_cases h0 : s.full false = true
        · rw [if_pos h0, if_pos (hmono false h0)]
        · rw [if_neg h0]
          split
          all_goals omega
      | poll1 =>
        dsimp only
        by_cases h1 : s.full true = true
        · rw [if_pos h1, if_pos (hmono true h1)]
        · rw [if_neg h1]
          split
          all_goals omega
      | idle => exact le_refl _
      | choose => exact le_refl _
      | header b => exact le_refl _
      | payload b => exact le_refl _
      | ack b => exact le_refl _
  | call f =>
    rw [step, if_neg hplace]
    exact ⟨rfl, hwait, le_refl _, rfl⟩
  | driver around => exact Bool.noConfusion he

lemma driver_progress (around : Bytes) (hplace : s.place ≠ .idle) (hwait : s.waiting ≠ []) :
    (s.driver around).delivered.length = s.delivered.length + 1 ∨
      (s.driver around).place ≠ .idle ∧ (s.driver around).waiting ≠ [] ∧
        (s.driver around).rank < s.rank ∧ (s.driver around).delivered = s.delivered := by
  have hfull := full_of_waiting hwait
  cases hp : s.place with
  | idle => exact absurd hp hplace
  | poll0 =>
    right
    rw [Reception.driver, hp, rank, rank, hp]
    refine ⟨?_, hwait, ?_, rfl⟩
    all_goals
      cases h0 : s.full false
    all_goals
      simp_all
  | poll1 =>
    right
    rw [Reception.driver, hp, rank, rank, hp]
    refine ⟨?_, hwait, ?_, rfl⟩
    all_goals
      cases h1 : s.full true
    all_goals
      simp_all
  | choose =>
    right
    rw [Reception.driver, hp, rank, rank, hp]
    exact ⟨Place.noConfusion, hwait, show 3 < 4 by decide, rfl⟩
  | header b =>
    right
    rw [Reception.driver, hp, rank, rank, hp]
    exact ⟨Place.noConfusion, hwait, show 2 < 3 by decide, rfl⟩
  | payload b =>
    right
    rw [Reception.driver, hp, rank, rank, hp]
    exact ⟨Place.noConfusion, hwait, show 1 < 2 by decide, rfl⟩
  | ack b =>
    left
    rw [Reception.driver, hp]
    exact List.length_append

lemma rank_pos (hplace : s.place ≠ .idle) : 0 < s.rank := by
  rw [rank]
  split
  case h_1 hp => exact absurd hp hplace
  all_goals
    try split
  all_goals omega

lemma call_returns (events : List Event) (hplace : s.place ≠ .idle) (hwait : s.waiting ≠ [])
    (hsteps : s.rank ≤ events.countP Event.isDriver) :
    ∃ first, first <+: events ∧
      (s.run first).delivered.length = s.delivered.length + 1 := by
  induction events generalizing s with
  | nil =>
    have hpos := rank_pos hplace
    rw [List.countP_nil] at hsteps
    omega
  | cons e events ih =>
    cases he : e.isDriver with
    | false =>
      obtain ⟨hsame, hwait', hrank, hdel⟩ := step_of_not_driver he hplace hwait
      rw [List.countP_cons_of_neg (by rw [he]; exact Bool.false_ne_true)] at hsteps
      obtain ⟨first, hfirst, hlen⟩ := ih (hsame ▸ hplace) hwait' (hrank.trans hsteps)
      refine ⟨e :: first, List.cons_prefix_cons.mpr ⟨rfl, hfirst⟩, ?_⟩
      rw [← hdel]
      exact hlen
    | true =>
      rw [List.countP_cons_of_pos he] at hsteps
      cases e with
      | receiving frame => exact Bool.noConfusion he
      | complete => exact Bool.noConfusion he
      | call f => exact Bool.noConfusion he
      | driver around =>
        rcases driver_progress around hplace hwait with hdone | ⟨hp, hw, hr, hd⟩
        · exact ⟨[.driver around], List.cons_prefix_cons.mpr ⟨rfl, List.nil_prefix⟩, hdone⟩
        · obtain ⟨first, hfirst, hlen⟩ := ih (s := s.driver around) hp hw (by omega)
          refine ⟨.driver around :: first, List.cons_prefix_cons.mpr ⟨rfl, hfirst⟩, ?_⟩
          rw [← hd]
          exact hlen

lemma rank_le (s : Reception) : s.rank ≤ 6 := by
  rw [rank]
  split
  all_goals
    try split
  all_goals omega

end Reception

/-- Calls give the frames back in the order of their arrival, and a call with a frame waiting
returns within six of its own steps, whatever happens between them. -/
theorem recv_delivers_in_order (buffer : Bool → Bytes) (next : Bool)
    (events : List Reception.Event) (h : (Reception.initial buffer next).Allowed events) :
    (∀ (k : ℕ) (d : Delivered),
      ((Reception.initial buffer next).run events).delivered[k]? = some d →
        ∃ b, ((Reception.initial buffer next).run events).arrived[k]? = some b ∧ d.Holds b) ∧
    (((Reception.initial buffer next).run events).place ≠ .idle →
      ((Reception.initial buffer next).run events).waiting ≠ [] →
      ∀ more, 6 ≤ more.countP Reception.Event.isDriver → ∃ first, first <+: more ∧
        (((Reception.initial buffer next).run events).run first).delivered.length =
          ((Reception.initial buffer next).run events).delivered.length + 1) := by
  constructor
  · intro k d hd
    obtain ⟨given, harrived, hgiven⟩ := ((Reception.ordered_initial buffer next).run h).split
    obtain ⟨hk, hdk⟩ := List.getElem?_eq_some_iff.mp hd
    obtain ⟨hlen, hall⟩ := List.forall₂_iff_get.mp hgiven
    have hk' : k < given.length := hlen ▸ hk
    refine ⟨given[k], ?_, ?_⟩
    · rw [harrived, List.getElem?_append_left hk', List.getElem?_eq_getElem hk']
    · have hholds := hall k hk hk'
      rw [← hdk]
      exact hholds
  · intro hplace hwait more hmore
    exact Reception.call_returns more hplace hwait ((Reception.rank_le _).trans hmore)

def shortFrame : List Byte := [0, 0, 0, 0, 0, 0, 1, 1, 1, 1, 1, 1, 0, 2, 0x41, 0x42]

def callEvents (around : Bytes) : List Reception.Event :=
  [.receiving shortFrame, .complete, .call fun _ => 0, .driver around, .driver around,
    .driver around, .driver around, .driver around]

def emptyBuffers : Reception := .initial (fun _ _ => 0) false

def payloadBehind : Bytes := fun i => if i = 0 then 0x41 else 0x42

theorem recv_delivers_shortFrame :
    ∃ d, (emptyBuffers.run (callEvents payloadBehind)).delivered[0]? = some d ∧
      ∃ b, (emptyBuffers.run (callEvents payloadBehind)).arrived[0]? = some b ∧ d.Holds b := by
  have hallowed : emptyBuffers.Allowed (callEvents payloadBehind) := by
    refine ⟨trivial, trivial, trivial, trivial, ?_, trivial, ?_, trivial, trivial⟩
    · rintro ⟨-, hfull, -⟩
      exact Bool.noConfusion hfull
    · exact ⟨by decide, by decide⟩
  refine ⟨_, rfl, ?_⟩
  exact (recv_delivers_in_order _ _ _ hallowed).1 0 _ rfl

def Reception.Event.Short : Reception.Event → Prop
  | .receiving frame => frame.length ≤ 1514
  | _ => True

theorem recv_copies_wrong_memory :
    ¬ ∀ (buffer : Bool → Bytes) (next : Bool) (events : List Reception.Event),
      (∀ e ∈ events, e.Short) → ∀ (k : ℕ) (d : Delivered),
      ((Reception.initial buffer next).run events).delivered[k]? = some d →
      ∃ b, ((Reception.initial buffer next).run events).arrived[k]? = some b ∧ d.Holds b := by
  intro hclaim
  have hshort : ∀ e ∈ callEvents fun _ => 0, e.Short := by
    simp [callEvents, Reception.Event.Short, shortFrame]
  obtain ⟨b, hb, hholds⟩ := hclaim (fun _ _ => 0) false (callEvents fun _ => 0) hshort 0 _ rfl
  have hdata := hholds.payload 0 (by decide)
  rw [← Option.some.inj hb] at hdata
  exact absurd hdata (by decide)

end Hthreads.Ethlite
