import Mathlib.Data.Int.Notation
import Mathlib.Data.Nat.Notation
import Mathlib.Logic.Function.Basic
import Mathlib.Tactic.TypeStar

/-!
# The queue of the link emulator

`queue.c`: a doubly linked list in memory, whose newest node is `root` and whose oldest is `last`.
A pointer that is followed must lead to a node, or the function has no result; `malloc` gives a cell
that is not in use. Beside it, the queue as a list, oldest item first, which the emulator is
modelled with.
-/

namespace TcpLike

/-- `_MAX_Q_SIZE_`. -/
def MAX_Q_SIZE : ℕ := 2048

/-- `prev` leads to the next newer node, `next` to the next older one. -/
structure QueueNode (α : Type) where
  items : α
  prev : Option ℕ
  next : Option ℕ
  deriving DecidableEq, Repr

/-- A queue, with the memory its nodes are in. -/
structure Queue (α : Type) where
  heap : ℕ → Option (QueueNode α)
  count : ℤ
  root : Option ℕ
  last : Option ℕ

namespace Queue

variable {α : Type}

def openQueue : Queue α := ⟨fun _ => none, 0, none, none⟩

def countQueue (queue : Queue α) : ℤ := queue.count

def setNode (queue : Queue α) (p : ℕ) (node : Option (QueueNode α)) : Queue α :=
  { queue with heap := Function.update queue.heap p node }

/-- A change to the node a pointer leads to. -/
def modifyNode (queue : Queue α) (p : Option ℕ) (f : QueueNode α → QueueNode α) :
    Option (Queue α) := do
  let p ← p
  let node ← queue.heap p
  return queue.setNode p (some (f node))

/-- `addQueue`, the new node being at `newNode`: whether it has taken the item. `none` as an item is
`NULL`. -/
def addQueue (queue : Queue α) (newItem : Option α) (newNode : ℕ) : Option (Queue α × Bool) :=
  if (MAX_Q_SIZE : ℤ) ≤ queue.count then some (queue, false)
  else
    match newItem with
    | none => some (queue, false)
    | some items =>
      if (queue.heap newNode).isSome then none
      else do
        let queue := queue.setNode newNode (some ⟨items, none, none⟩)
        let queue ←
          if queue.root = none then some { queue with last := some newNode }
          else queue.modifyNode queue.root fun node => { node with prev := some newNode }
        let queue ← queue.modifyNode (some newNode) fun node => { node with next := queue.root }
        return ({ queue with root := some newNode, count := queue.count + 1 }, true)

/-- `getQueue`, with the item it returns. -/
def getQueue (queue : Queue α) : Option (Queue α × Option α) :=
  if queue.count ≤ 0 then some (queue, none)
  else do
    let lastNode ← queue.last
    let node ← queue.heap lastNode
    let queue ←
      if queue.root = queue.last then some { queue with root := none }
      else queue.modifyNode node.prev fun node => { node with next := none }
    let node' ← queue.heap lastNode
    let queue := { queue with last := node'.prev }
    let queue := queue.setNode lastNode none
    return ({ queue with count := queue.count - 1 }, some node.items)

/-- The loop of `closeQueue`, for at most `fuel` rounds. -/
def closeLoop : ℕ → Queue α → Option (Queue α)
  | 0, queue => some queue
  | fuel + 1, queue =>
    if queue.count = 0 then some queue
    else do
      let (queue, _) ← queue.getQueue
      closeLoop fuel queue

/-- `closeQueue`. A round of its loop takes one item off. -/
def closeQueue (queue : Queue α) : Option (Queue α) := closeLoop queue.count.toNat queue

/-- What a program may do with a queue. -/
inductive Op (α : Type)
  | add (newItem : Option α) (newNode : ℕ)
  | get
  deriving DecidableEq, Repr

/-- Whether the item was taken, or the item returned. -/
inductive Result (α : Type)
  | taken (b : Bool)
  | item (x : Option α)
  deriving DecidableEq, Repr

def op (queue : Queue α) : Op α → Option (Queue α × Result α)
  | .add newItem newNode => (queue.addQueue newItem newNode).map fun (q, b) => (q, .taken b)
  | .get => queue.getQueue.map fun (q, x) => (q, .item x)

end Queue

/-! ## The queue as a list -/

namespace Fifo

variable {α : Type}

/-- `addQueue`: a full queue takes no item. -/
def add (queue : List α) (newItem : α) : Option (List α) :=
  if MAX_Q_SIZE ≤ queue.length then none else some (queue ++ [newItem])

/-- `getQueue`. -/
def get : List α → Option (α × List α)
  | [] => none
  | item :: queue => some (item, queue)

/-- The operations on the list. -/
def op (queue : List α) : Queue.Op α → List α × Queue.Result α
  | .add none _ => (queue, .taken false)
  | .add (some newItem) _ =>
    match add queue newItem with
    | none => (queue, .taken false)
    | some queue => (queue, .taken true)
  | .get =>
    match get queue with
    | none => (queue, .item none)
    | some (item, queue) => (queue, .item (some item))

end Fifo

end TcpLike
