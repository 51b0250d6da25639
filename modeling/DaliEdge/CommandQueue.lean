import DaliEdge.ForwardFrame
import DaliEdge.StableQueue

/-!
# The bounded command queue

The queue is the source's array of sixty-four slots with a count. Insertion scans for the
first slot of a less urgent request and moves the rest up by one; removal takes the first
slot and moves the rest down. Both loops are shown to do what stable insertion by priority
and taking the head do to the occupied slots.
-/

namespace DaliEdge

inductive CommandPriority
  | critical | high | normal | low
  deriving DecidableEq

/-- The enumerator's value; a smaller one is more urgent. -/
def CommandPriority.code : CommandPriority → ℕ
  | .critical => 0
  | .high => 1
  | .normal => 2
  | .low => 3

inductive QueueResult
  | ok | full
  deriving DecidableEq

structure DaliRequest where
  frame : ForwardFrame := {}
  expectsResponse : Bool := true
  timeoutMs : UInt32 := 20
  maxRetries : UInt8 := 3
  priority : CommandPriority := .normal
  deviceKey : UInt8 := 0xFF
  requestSequence : UInt32 := 0
  deriving DecidableEq

def DaliRequest.urgency (request : DaliRequest) : ℕ := request.priority.code

structure DaliCommandQueue where
  items : Vector DaliRequest 64
  count : ℕ
  count_le : count ≤ 64

namespace DaliCommandQueue

abbrev kCapacity : ℕ := 64

def initial : DaliCommandQueue := ⟨Vector.replicate 64 {}, 0, Nat.zero_le _⟩

/-- The `while` loop of `enqueue`, with `remaining` slots of the count still to look at. -/
def scanInsertion (items : Vector DaliRequest 64) (requestedPriority : ℕ) :
    (insertion remaining : ℕ) → insertion + remaining ≤ 64 → ℕ
  | insertion, 0, _ => insertion
  | insertion, remaining + 1, h =>
      if items[insertion].priority.code ≤ requestedPriority then
        scanInsertion items requestedPriority (insertion + 1) remaining (by omega)
      else insertion

def insertionIndex (q : DaliCommandQueue) (request : DaliRequest) : ℕ :=
  scanInsertion q.items request.priority.code 0 q.count (by have := q.count_le; omega)

/-- The `for` loop of `enqueue`, from `index` down to `insertion`. -/
def shiftUp (insertion : ℕ) :
    (index : ℕ) → index < 64 → Vector DaliRequest 64 → Vector DaliRequest 64
  | 0, _, items => items
  | index + 1, h, items =>
      if insertion < index + 1 then
        shiftUp insertion index (by omega) (items.set (index + 1) items[index])
      else items

def enqueue (q : DaliCommandQueue) (request : DaliRequest) : QueueResult × DaliCommandQueue :=
  if h : q.count = kCapacity then (.full, q)
  else
    have hcount : q.count < 64 := lt_of_le_of_ne q.count_le h
    let insertion := q.insertionIndex request
    let shifted := shiftUp insertion q.count hcount q.items
    (.ok, ⟨shifted.setIfInBounds insertion request, q.count + 1, hcount⟩)

/-- The `for` loop of `pop`: slot `index + 1` moves to slot `index`, for `remaining` slots. -/
def shiftDown : (index remaining : ℕ) → index + remaining < 64 →
    Vector DaliRequest 64 → Vector DaliRequest 64
  | _, 0, _, items => items
  | index, remaining + 1, h, items =>
      shiftDown (index + 1) remaining (by omega) (items.set index items[index + 1])

def pop (q : DaliCommandQueue) : Option DaliRequest × DaliCommandQueue :=
  if h : q.count = 0 then (none, q)
  else
    have hcount : q.count - 1 < 64 := by have := q.count_le; omega
    (some q.items[0], ⟨shiftDown 0 (q.count - 1) (by omega) q.items, q.count - 1, hcount.le⟩)

def size (q : DaliCommandQueue) : ℕ := q.count

def empty (q : DaliCommandQueue) : Bool := q.count = 0

def contents (q : DaliCommandQueue) : List DaliRequest := q.items.toList.take q.count

@[simp] theorem length_contents (q : DaliCommandQueue) : q.contents.length = q.count := by
  have := q.count_le
  simp [contents, this]

theorem getElem_contents (q : DaliCommandQueue) (i : ℕ) (h : i < q.contents.length) (hi : i < 64) :
    q.contents[i] = q.items[i] := by
  simp [contents]

@[simp] theorem contents_initial : initial.contents = [] := rfl

theorem scanInsertion_eq (q : DaliCommandQueue) (request : DaliRequest) (insertion remaining : ℕ)
    (h : insertion + remaining ≤ 64) (hq : insertion + remaining = q.count) :
    scanInsertion q.items request.priority.code insertion remaining h =
      insertion + StableQueue.slot DaliRequest.urgency request (q.contents.drop insertion) := by
  induction remaining generalizing insertion with
  | zero =>
      have hd : q.contents.drop insertion = [] := by
        rw [List.drop_eq_nil_iff, length_contents]
        omega
      rw [hd, scanInsertion, StableQueue.slot_nil, Nat.add_zero]
  | succ remaining ih =>
      have hlt : insertion < q.contents.length := by rw [length_contents]; omega
      rw [List.drop_eq_getElem_cons hlt, StableQueue.slot_cons, getElem_contents _ _ _ (by omega),
        scanInsertion]
      change (if DaliRequest.urgency q.items[insertion] ≤ DaliRequest.urgency request then _ else _) = _
      by_cases hle : DaliRequest.urgency q.items[insertion] ≤ DaliRequest.urgency request
      · rw [if_pos hle, if_pos hle, ih (insertion + 1) (by omega) (by omega)]
        omega
      · rw [if_neg hle, if_neg hle, Nat.add_zero]

theorem insertionIndex_eq (q : DaliCommandQueue) (request : DaliRequest) :
    q.insertionIndex request = StableQueue.slot DaliRequest.urgency request q.contents := by
  rw [insertionIndex, scanInsertion_eq q request 0 q.count _ (Nat.zero_add _), Nat.zero_add,
    List.drop_zero]

theorem insertionIndex_le (q : DaliCommandQueue) (request : DaliRequest) :
    q.insertionIndex request ≤ q.count := by
  rw [insertionIndex_eq, ← length_contents]
  exact StableQueue.slot_le_length _ _ _

theorem getElem_shiftUp (insertion index : ℕ) (h : index < 64) (items : Vector DaliRequest 64)
    (k : ℕ) (hk : k < 64) :
    (shiftUp insertion index h items)[k] =
      if insertion < k ∧ k ≤ index then items[k - 1] else items[k] := by
  induction index generalizing items with
  | zero =>
      rw [shiftUp, if_neg (by omega)]
  | succ index ih =>
      rw [shiftUp]
      by_cases hi : insertion < index + 1
      · rw [if_pos hi, ih (by omega)]
        by_cases hmoved : insertion < k ∧ k ≤ index
        · rw [if_pos hmoved, if_pos (by omega), Vector.getElem_set_ne _ _ (by omega)]
        · rw [if_neg hmoved]
          by_cases heq : index + 1 = k
          · subst heq
            rw [if_pos (by omega), Vector.getElem_set_self]
            rfl
          · rw [if_neg (by omega), Vector.getElem_set_ne _ _ heq]
      · rw [if_neg hi, if_neg (by omega)]

theorem getElem_shiftDown (index remaining : ℕ) (h : index + remaining < 64)
    (items : Vector DaliRequest 64) (k : ℕ) (hk : k + 1 < 64) :
    (shiftDown index remaining h items)[k] =
      if index ≤ k ∧ k < index + remaining then items[k + 1] else items[k] := by
  induction remaining generalizing index items with
  | zero =>
      rw [shiftDown, if_neg (by omega)]
  | succ remaining ih =>
      rw [shiftDown, ih (index + 1) (by omega)]
      by_cases hmoved : index + 1 ≤ k ∧ k < index + 1 + remaining
      · rw [if_pos hmoved, if_pos (by omega), Vector.getElem_set_ne _ _ (by omega)]
      · rw [if_neg hmoved]
        by_cases heq : index = k
        · subst heq
          rw [if_pos (by omega), Vector.getElem_set_self]
        · rw [if_neg (by omega), Vector.getElem_set_ne _ _ heq]

theorem contents_enqueue_of_lt (q : DaliCommandQueue) (request : DaliRequest)
    (h : q.count < 64) :
    (q.enqueue request).2.contents =
      StableQueue.insert DaliRequest.urgency request q.contents := by
  have hne : ¬ q.count = kCapacity := h.ne
  have hle := q.insertionIndex_le request
  apply List.ext_getElem
  · simp [enqueue, hne]
  · intro k hk hk'
    have hk64 : k < q.count + 1 := by simpa using hk'
    rw [getElem_contents _ _ _ (by omega)]
    simp only [enqueue, dif_neg hne, Vector.getElem_setIfInBounds, getElem_shiftUp,
      StableQueue.insert, ← insertionIndex_eq]
    rcases lt_trichotomy k (q.insertionIndex request) with hlt | heq | hgt
    · rw [if_neg (by omega), if_neg (by omega), List.getElem_insertIdx_of_lt hlt,
        getElem_contents _ _ _ (by omega)]
    · subst heq
      rw [if_pos rfl, List.getElem_insertIdx_self]
    · rw [if_neg (by omega), if_pos (by omega), List.getElem_insertIdx_of_gt hgt,
        getElem_contents _ _ _ (by omega)]

theorem enqueue_ok_iff (q : DaliCommandQueue) (request : DaliRequest) :
    (q.enqueue request).1 = .ok ↔ q.count < 64 := by
  by_cases h : q.count = kCapacity
  · simp [enqueue, h]
  · have hlt : q.count < 64 := lt_of_le_of_ne q.count_le h
    simp [enqueue, h, hlt]

theorem enqueue_of_eq (q : DaliCommandQueue) (request : DaliRequest) (h : q.count = kCapacity) :
    q.enqueue request = (.full, q) := by
  rw [enqueue, dif_pos h]

theorem pop_of_ne (q : DaliCommandQueue) (h : q.count ≠ 0) :
    q.pop.1 = some q.items[0] ∧ q.pop.2.count = q.count - 1 ∧
      ∀ k (_ : k < 64) (_ : k + 1 < 64), k + 1 < q.count → q.pop.2.items[k] = q.items[k + 1] := by
  have hle := q.count_le
  rw [pop, dif_neg h]
  refine ⟨rfl, rfl, fun k _ _ hk => ?_⟩
  rw [getElem_shiftDown 0 (q.count - 1) (by omega) q.items k (by omega), if_pos (by omega)]

theorem pop_eq (q : DaliCommandQueue) :
    q.pop.1 = q.contents.head? ∧ q.pop.2.contents = q.contents.tail := by
  by_cases h : q.count = 0
  · have hc : q.contents = [] := by rw [← List.length_eq_zero_iff, length_contents, h]
    rw [pop, dif_pos h]
    simp [hc]
  · obtain ⟨hhead, hcount, hitems⟩ := q.pop_of_ne h
    have hpos : 0 < q.contents.length := by rw [length_contents]; omega
    constructor
    · rw [hhead, List.head?_eq_getElem?, List.getElem?_eq_getElem hpos,
        getElem_contents _ _ _ (by omega)]
    · apply List.ext_getElem
      · simp [hcount]
      · intro k hk hk'
        have hk1 : k + 1 < q.count := by simp at hk'; omega
        have hle := q.count_le
        rw [getElem_contents _ _ _ (by omega), List.getElem_tail, getElem_contents _ _ _ (by omega),
          hitems k _ _ hk1]

end DaliCommandQueue

end DaliEdge
