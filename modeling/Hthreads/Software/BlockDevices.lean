import Hthreads.Software.SchedParam

/-! The registry of the block devices (`block.c`), a list of nodes on the heap. -/

namespace Hthreads.Software

def enoent : Hint := 2

-- `NULL` is `none`
abbrev Pointer := Option ℕ

inductive PointerFault
  | nullPointer | dangling | endless
  deriving DecidableEq, Repr

section Code

variable {δ : Type}

/-- `bdev_node_t`, with a device for the pointer to it. -/
structure BdevNode (δ : Type) where
  next : Pointer
  prev : Pointer
  info : δ

/-- `bdev_t`, and the nodes that `malloc` has handed out. -/
structure Bdev (δ : Type) where
  head : Pointer
  tail : Pointer
  devices : Huint
  nodes : ℕ → Option (BdevNode δ)

namespace Bdev

def node (dev : Bdev δ) : Pointer → Except PointerFault (BdevNode δ)
  | none => .error .nullPointer
  | some a => (dev.nodes a).elim (.error .dangling) .ok

def put (dev : Bdev δ) (a : ℕ) (n : Option (BdevNode δ)) : Bdev δ :=
  { dev with nodes := Function.update dev.nodes a n }

-- an assignment to `p->next` or `p->prev`
def assign (dev : Bdev δ) (p : Pointer) (f : BdevNode δ → BdevNode δ) :
    Except PointerFault (Bdev δ) := do
  let n ← dev.node p
  pure (p.elim dev fun a => dev.put a (some (f n)))

end Bdev

def bdevCreate (nodes : ℕ → Option (BdevNode δ)) : Hint × Bdev δ :=
  (success, { head := none, tail := none, devices := 0, nodes })

/-- `malloc` is taken to succeed. -/
def bdevInsert (malloc : (ℕ → Option (BdevNode δ)) → ℕ) (info : δ) (dev : Bdev δ) :
    Except PointerFault (Hint × Bdev δ) := do
  let curr := malloc dev.nodes
  let dev := dev.put curr (some { prev := dev.tail, next := none, info })
  let dev ← dev.assign dev.tail fun n => { n with next := some curr }
  pure (success, { dev with devices := dev.devices + 1 })

variable [DecidableEq δ]

/-- The loop of `bdev_remove`, for at most the given number of nodes. -/
def removeFrom (info : δ) (dev : Bdev δ) : ℕ → Pointer → Except PointerFault (Hint × Bdev δ)
  | _, none => pure (-enoent, dev)
  | 0, some _ => .error .endless
  | fuel + 1, some curr => do
    let n ← dev.node (some curr)
    if n.info = info then
      let dev ← dev.assign n.prev fun m => { m with next := n.next }
      let n ← dev.node (some curr)
      let dev ← dev.assign n.next fun m => { m with prev := n.prev }
      pure (success, { dev.put curr none with devices := dev.devices - 1 })
    else removeFrom info dev fuel n.next

def bdevRemove (fuel : ℕ) (info : δ) (dev : Bdev δ) : Except PointerFault (Hint × Bdev δ) :=
  removeFrom info dev fuel dev.head

/-- The loop of `bdev_find`, for at most the given number of nodes. -/
def findFrom (nameOf : δ → String) (name : String) (dev : Bdev δ) :
    ℕ → Pointer → Except PointerFault (Option δ)
  | _, none => pure none
  | 0, some _ => .error .endless
  | fuel + 1, some curr => do
    let n ← dev.node (some curr)
    if name = nameOf n.info then pure (some n.info) else findFrom nameOf name dev fuel n.next

def bdevFind (nameOf : δ → String) (fuel : ℕ) (name : String) (dev : Bdev δ) :
    Except PointerFault (Option δ) :=
  findFrom nameOf name dev fuel dev.head

inductive BdevCall (δ : Type)
  | insert (info : δ)
  | remove (info : δ)
  | find (name : String)

inductive BdevAnswer (δ : Type)
  | status (code : Hint)
  | device (info : Option δ)

variable (malloc : (ℕ → Option (BdevNode δ)) → ℕ) (nameOf : δ → String) (fuel : ℕ)

def BdevCall.perform (dev : Bdev δ) : BdevCall δ → Except PointerFault (BdevAnswer δ × Bdev δ)
  | .insert info => do
    let (code, dev) ← bdevInsert malloc info dev
    pure (.status code, dev)
  | .remove info => do
    let (code, dev) ← bdevRemove fuel info dev
    pure (.status code, dev)
  | .find name => do
    let info ← bdevFind nameOf fuel name dev
    pure (.device info, dev)

end Code

section Registry

variable {δ : Type} {nodes : ℕ → Option (BdevNode δ)}

/-- The nodes at the given addresses are linked in both directions. -/
def Linked (nodes : ℕ → Option (BdevNode δ)) : Pointer → List (ℕ × δ) → Prop
  | _, [] => True
  | prev, (a, info) :: cells =>
    nodes a = some { next := cells.head?.map Prod.fst, prev, info } ∧ Linked nodes (some a) cells

structure Represents (dev : Bdev δ) (cells : List (ℕ × δ)) : Prop where
  head : dev.head = cells.head?.map Prod.fst
  tail : dev.tail = cells.getLast?.map Prod.fst
  devices : dev.devices = BitVec.ofNat 32 cells.length
  nodup : (cells.map Prod.fst).Nodup
  linked : Linked dev.nodes none cells

lemma represents_created : Represents (bdevCreate nodes).2 [] where
  head := rfl
  tail := rfl
  devices := rfl
  nodup := List.nodup_nil
  linked := trivial

def BdevCall.Inserts : BdevCall δ → Prop
  | .insert _ => True
  | .remove _ | .find _ => False

variable {malloc : (ℕ → Option (BdevNode δ)) → ℕ} {nameOf : δ → String} {fuel : ℕ}

lemma bdevInsert_created (info : δ) :
    bdevInsert malloc info (bdevCreate nodes).2 = .error .nullPointer := rfl

variable [DecidableEq δ]

def BdevCall.registry (nameOf : δ → String) (l : List δ) : BdevCall δ → BdevAnswer δ × List δ
  | .insert info => (.status success, l ++ [info])
  | .remove info => if info ∈ l then (.status success, l.erase info) else (.status (-enoent), l)
  | .find name => (.device (l.find? fun info => nameOf info = name), l)

/-- The calls answer as the list does, and leave one doubly linked list of its devices each time,
which is the same one where the list stays the same. -/
def Keeps (malloc : (ℕ → Option (BdevNode δ)) → ℕ) (nameOf : δ → String) (fuel : ℕ)
    (dev : Bdev δ) (l : List δ) : List (BdevCall δ) → Prop
  | [] => ∃ cells, Represents dev cells ∧ cells.map Prod.snd = l
  | call :: calls => (∃ cells, Represents dev cells ∧ cells.map Prod.snd = l) ∧
      ∃ dev', call.perform malloc nameOf fuel dev = .ok ((call.registry nameOf l).1, dev') ∧
        ((call.registry nameOf l).2 = l → dev' = dev) ∧
        Keeps malloc nameOf fuel dev' (call.registry nameOf l).2 calls

lemma not_inserts_of_perform {call : BdevCall δ} {r : BdevAnswer δ × Bdev δ}
    (h : call.perform malloc nameOf fuel (bdevCreate nodes).2 = .ok r) : ¬ call.Inserts := by
  cases call with
  | insert info =>
    rw [BdevCall.perform, bdevInsert_created] at h
    cases h
  | remove info => exact id
  | find name => exact id

lemma perform_created {call : BdevCall δ} (h : ¬ call.Inserts) :
    call.perform malloc nameOf fuel (bdevCreate nodes).2 =
      .ok ((call.registry nameOf []).1, (bdevCreate nodes).2) ∧
        (call.registry nameOf []).2 = [] := by
  cases call with
  | insert info => exact absurd trivial h
  | remove info => cases fuel <;> exact ⟨rfl, rfl⟩
  | find name => cases fuel <;> exact ⟨rfl, rfl⟩

/-- The registry works as long as nothing is registered. -/
theorem bdev_keeps_iff (malloc : (ℕ → Option (BdevNode δ)) → ℕ) (nameOf : δ → String) (fuel : ℕ)
    (nodes : ℕ → Option (BdevNode δ)) (calls : List (BdevCall δ)) :
    Keeps malloc nameOf fuel (bdevCreate nodes).2 [] calls ↔ ∀ call ∈ calls, ¬ call.Inserts := by
  induction calls with
  | nil => exact iff_of_true ⟨[], represents_created, rfl⟩ (List.forall_mem_nil _)
  | cons call calls ih =>
    rw [List.forall_mem_cons]
    constructor
    · rintro ⟨-, dev, hperform, -, hrest⟩
      have hcall : ¬ call.Inserts := not_inserts_of_perform hperform
      obtain ⟨hsame, hlist⟩ := @perform_created _ nodes malloc nameOf fuel _ _ hcall
      rw [hsame] at hperform
      obtain ⟨-, rfl⟩ := Prod.mk.inj (Except.ok.inj hperform)
      rw [hlist] at hrest
      exact ⟨hcall, ih.mp hrest⟩
    · rintro ⟨hcall, hcalls⟩
      obtain ⟨hperform, hlist⟩ := @perform_created _ nodes malloc nameOf fuel _ _ hcall
      refine ⟨⟨[], represents_created, rfl⟩, _, hperform, fun _ => rfl, ?_⟩
      rw [hlist]
      exact ih.mpr hcalls

theorem bdev_of_first_device :
    bdevInsert (fun _ => 0x1000) "sysace" (bdevCreate fun _ => none).2 = .error .nullPointer ∧
      ¬ Keeps (fun _ => 0x1000) id 1 (bdevCreate fun _ => none).2 [] [.insert "sysace"] := by
  refine ⟨rfl, ?_⟩
  rintro ⟨-, dev, hperform, -⟩
  cases hperform

end Registry

end Hthreads.Software
