import DaliEdge.CommandQueue
import DaliEdge.Machine

/-!
# Runs of the command queue

Requests are numbered in the order in which the queue accepts them. An account lists the
accepted requests and the numbers of those that were popped; it explains a run when every pop
returned, of the requests that waited, the earliest one of the most urgent priority.
-/

namespace DaliEdge

inductive QueueOp
  | enqueue (request : DaliRequest)
  | pop

inductive QueueAnswer
  | enqueued (result : QueueResult)
  | popped (request : Option DaliRequest)
  deriving DecidableEq

structure QueueAccount where
  accepted : List DaliRequest := []
  popped : List ℕ := []

namespace QueueAccount

/-- The request with this number was accepted and not yet popped. -/
def Waits (account : QueueAccount) (number : ℕ) (request : DaliRequest) : Prop :=
  account.accepted[number]? = some request ∧ number ∉ account.popped

/-- The earliest accepted one of the most urgent priority among the requests that wait. -/
def Foremost (account : QueueAccount) (number : ℕ) (request : DaliRequest) : Prop :=
  account.Waits number request ∧ ∀ number' request', account.Waits number' request' →
    number' ≠ number → request.priority.code < request'.priority.code ∨
      (request.priority.code = request'.priority.code ∧ number < number')

def accept (account : QueueAccount) (request : DaliRequest) : QueueAccount :=
  { account with accepted := account.accepted ++ [request] }

def take (account : QueueAccount) (number : ℕ) : QueueAccount :=
  { account with popped := account.popped ++ [number] }

/-- The account explains what was asked of the queue and what it answered. -/
inductive Explains : QueueAccount → List (QueueOp × QueueAnswer) → Prop
  | start : Explains {} []
  | accepted {account history} (request : DaliRequest) (h : Explains account history) :
      Explains (account.accept request) (history ++ [(.enqueue request, .enqueued .ok)])
  | refused {account history} (request : DaliRequest) (h : Explains account history) :
      Explains account (history ++ [(.enqueue request, .enqueued .full)])
  | popped {account history} (number : ℕ) (request : DaliRequest) (h : Explains account history)
      (hfirst : account.Foremost number request) :
      Explains (account.take number) (history ++ [(.pop, .popped (some request))])
  | nothing {account history} (h : Explains account history)
      (hnone : ∀ number request, ¬ account.Waits number request) :
      Explains account (history ++ [(.pop, .popped none)])

theorem waits_accept {account : QueueAccount} (request : DaliRequest)
    (hlt : ∀ number ∈ account.popped, number < account.accepted.length) (number : ℕ)
    (request' : DaliRequest) :
    (account.accept request).Waits number request' ↔
      (number, request') = (account.accepted.length, request) ∨ account.Waits number request' := by
  simp only [Waits, accept, Prod.mk.injEq]
  rcases Nat.lt_trichotomy number account.accepted.length with h | rfl | h
  · rw [List.getElem?_append_left h]
    constructor
    · exact .inr
    · rintro (⟨rfl, -⟩ | hwaits)
      · exact absurd h (Nat.lt_irrefl _)
      · exact hwaits
  · have hnot : account.accepted.length ∉ account.popped := fun hmem =>
      absurd (hlt _ hmem) (Nat.lt_irrefl _)
    simp [hnot, eq_comm]
  · have hnone : (account.accepted ++ [request])[number]? = none := by
      rw [List.getElem?_eq_none_iff, List.length_append, List.length_singleton]
      omega
    have hnone' : account.accepted[number]? = none := List.getElem?_eq_none h.le
    rw [hnone, hnone']
    constructor
    · rintro ⟨hsome, -⟩
      cases hsome
    · rintro (⟨rfl, -⟩ | ⟨hsome, -⟩)
      · exact absurd h (Nat.lt_irrefl _)
      · cases hsome

theorem waits_take (account : QueueAccount) (number number' : ℕ) (request : DaliRequest) :
    (account.take number).Waits number' request ↔
      account.Waits number' request ∧ number' ≠ number := by
  simp only [Waits, take, List.mem_append, List.mem_singleton, not_or, and_assoc, ne_eq]

end QueueAccount

namespace DaliCommandQueue

def apply (q : DaliCommandQueue) : QueueOp → DaliCommandQueue × QueueAnswer
  | .enqueue request => ((q.enqueue request).2, .enqueued (q.enqueue request).1)
  | .pop => (q.pop.2, .popped q.pop.1)

def machine : Machine DaliCommandQueue QueueOp QueueAnswer := ⟨apply⟩

/-- What was asked of a fresh queue, each with the queue's answer. -/
def history (ops : List QueueOp) : List (QueueOp × QueueAnswer) :=
  ops.zip (machine.outputs initial ops)

def run (ops : List QueueOp) : DaliCommandQueue := machine.after initial ops

theorem history_snoc (ops : List QueueOp) (op : QueueOp) :
    history (ops ++ [op]) = history ops ++ [(op, ((run ops).apply op).2)] := by
  rw [history, Machine.outputs_snoc, List.zip_append (machine.length_outputs _ _).symm]
  rfl

theorem run_snoc (ops : List QueueOp) (op : QueueOp) :
    run (ops ++ [op]) = ((run ops).apply op).1 := machine.after_snoc initial ops op

/-- The waiting requests of the account, numbered, stand in the queue in the order in which they
are to be served. -/
structure Lines (account : QueueAccount) (line : List (ℕ × DaliRequest)) (q : DaliCommandQueue) :
    Prop where
  contents_eq : line.map Prod.snd = q.contents
  ordered : line.Pairwise (StableQueue.Before (DaliRequest.urgency ∘ Prod.snd) Prod.fst)
  mem_iff : ∀ number request, (number, request) ∈ line ↔ account.Waits number request
  length_eq : line.length + account.popped.length = account.accepted.length
  popped_lt : ∀ number ∈ account.popped, number < account.accepted.length
  nodup : account.popped.Nodup

variable {account : QueueAccount} {line : List (ℕ × DaliRequest)} {q : DaliCommandQueue}

theorem lines_initial : Lines {} [] initial where
  contents_eq := rfl
  ordered := .nil
  mem_iff := by simp [QueueAccount.Waits]
  length_eq := rfl
  popped_lt := by simp
  nodup := List.nodup_nil

theorem Lines.count_eq (h : Lines account line q) : line.length = q.count := by
  rw [← q.length_contents, ← h.contents_eq, List.length_map]

theorem Lines.number_lt (h : Lines account line q) {number : ℕ} {request : DaliRequest}
    (hmem : (number, request) ∈ line) : number < account.accepted.length := by
  obtain ⟨hsome, -⟩ := (h.mem_iff number request).1 hmem
  exact (List.getElem?_eq_some_iff.1 hsome).1

theorem Lines.enqueue (h : Lines account line q) (request : DaliRequest) (hroom : q.count < 64) :
    Lines (account.accept request) (StableQueue.insert (DaliRequest.urgency ∘ Prod.snd)
      (account.accepted.length, request) line) (q.enqueue request).2 where
  contents_eq := by
    rw [StableQueue.map_insert, h.contents_eq, q.contents_enqueue_of_lt request hroom]
  ordered := StableQueue.before_insert _ _ h.ordered fun _ hmem => h.number_lt hmem
  mem_iff number request' := by
    rw [StableQueue.mem_insert, QueueAccount.waits_accept request h.popped_lt, h.mem_iff]
  length_eq := by
    have := h.length_eq
    simp only [StableQueue.length_insert, QueueAccount.accept, List.length_append,
      List.length_singleton]
    omega
  popped_lt number hmem := by
    rw [QueueAccount.accept, List.length_append, List.length_singleton]
    exact Nat.lt_succ_of_lt (h.popped_lt number hmem)
  nodup := h.nodup

theorem Lines.mem_tail_iff {number : ℕ} {request : DaliRequest}
    (h : Lines account ((number, request) :: line) q) (number' : ℕ) (request' : DaliRequest) :
    (number', request') ∈ line ↔ account.Waits number' request' ∧ number' ≠ number := by
  obtain ⟨hhead, -⟩ := List.pairwise_cons.1 h.ordered
  rw [← h.mem_iff, List.mem_cons]
  constructor
  · intro hmem
    refine ⟨.inr hmem, ?_⟩
    rintro rfl
    obtain ⟨hsome, -⟩ := (h.mem_iff number' request).1 List.mem_cons_self
    obtain ⟨hsome', -⟩ := (h.mem_iff number' request').1 (List.mem_cons_of_mem _ hmem)
    obtain rfl : request = request' := by rwa [hsome, Option.some.injEq] at hsome'
    rcases hhead _ hmem with hlt | ⟨-, hlt⟩
    · exact Nat.lt_irrefl _ hlt
    · exact Nat.lt_irrefl _ hlt
  · rintro ⟨heq | hmem, hne⟩
    · exact absurd (congrArg Prod.fst heq) hne
    · exact hmem

theorem Lines.foremost {number : ℕ} {request : DaliRequest}
    (h : Lines account ((number, request) :: line) q) : account.Foremost number request := by
  obtain ⟨hhead, -⟩ := List.pairwise_cons.1 h.ordered
  refine ⟨(h.mem_iff number request).1 List.mem_cons_self, fun number' request' hwaits hne => ?_⟩
  exact hhead _ ((h.mem_tail_iff number' request').2 ⟨hwaits, hne⟩)

theorem Lines.pop {number : ℕ} {request : DaliRequest}
    (h : Lines account ((number, request) :: line) q) :
    q.pop.1 = some request ∧ Lines (account.take number) line q.pop.2 := by
  obtain ⟨hhead, hrest⟩ := q.pop_eq
  rw [← h.contents_eq] at hhead hrest
  refine ⟨hhead, ⟨hrest.symm, h.ordered.tail, fun number' request' => ?_, ?_, ?_, ?_⟩⟩
  · rw [h.mem_tail_iff, QueueAccount.waits_take]
  · have := h.length_eq
    simp only [QueueAccount.take, List.length_cons, List.length_append, List.length_nil] at this ⊢
    omega
  · intro number' hmem
    rcases List.mem_append.1 hmem with hmem | hmem
    · exact h.popped_lt number' hmem
    · rw [List.mem_singleton.1 hmem]
      exact h.number_lt List.mem_cons_self
  · refine List.nodup_append.2 ⟨h.nodup, List.pairwise_singleton _ _, ?_⟩
    rintro number' hmem _ hmem' rfl
    rw [List.mem_singleton.1 hmem'] at hmem
    exact ((h.mem_iff number request).1 List.mem_cons_self).2 hmem

theorem exists_lines (ops : List QueueOp) :
    ∃ account line, account.Explains (history ops) ∧ Lines account line (run ops) := by
  induction ops using List.reverseRecOn with
  | nil => exact ⟨_, _, .start, lines_initial⟩
  | append_singleton ops op ih =>
      obtain ⟨account, line, hexplains, hlines⟩ := ih
      rw [history_snoc, run_snoc]
      cases op with
      | enqueue request =>
          by_cases hroom : (run ops).count < 64
          · have hok := ((run ops).enqueue_ok_iff request).2 hroom
            refine ⟨_, _, ?_, hlines.enqueue request hroom⟩
            simp only [apply, hok]
            exact hexplains.accepted request
          · have heq : (run ops).count = 64 := le_antisymm (run ops).count_le (not_lt.1 hroom)
            have hfull := (run ops).enqueue_of_eq request heq
            refine ⟨account, line, ?_, ?_⟩
            · simp only [apply, hfull]
              exact hexplains.refused request
            · simp only [apply, hfull]
              exact hlines
      | pop =>
          cases line with
          | nil =>
              obtain ⟨hhead, hrest⟩ := (run ops).pop_eq
              rw [← hlines.contents_eq] at hhead hrest
              refine ⟨account, [], ?_, { hlines with contents_eq := hrest.symm }⟩
              simp only [apply, hhead]
              refine hexplains.nothing fun number request hwaits => ?_
              exact List.not_mem_nil ((hlines.mem_iff number request).2 hwaits)
          | cons entry line =>
              obtain ⟨number, request⟩ := entry
              obtain ⟨hhead, hrest⟩ := hlines.pop
              refine ⟨_, _, ?_, hrest⟩
              simp only [apply, hhead]
              exact hexplains.popped number request hlines.foremost

/-- The queue is a bounded stable priority queue. -/
theorem run_explained (ops : List QueueOp) :
    ∃ account : QueueAccount, account.Explains (history ops) ∧ account.popped.Nodup ∧
      (run ops).size + account.popped.length = account.accepted.length ∧ (run ops).size ≤ 64 ∧
      ((run ops).empty = true ↔ ∀ number request, ¬ account.Waits number request) ∧
      ∀ request, (((run ops).enqueue request).1 = .full ↔ (run ops).size = 64) ∧
        ((run ops).size = 64 → ((run ops).enqueue request).2 = run ops) := by
  obtain ⟨account, line, hexplains, hlines⟩ := exists_lines ops
  have hle := (run ops).count_le
  have hcount := hlines.count_eq
  refine ⟨account, hexplains, hlines.nodup, ?_, hle, ?_, fun request => ⟨?_, fun h => ?_⟩⟩
  · rw [size, ← hcount, hlines.length_eq]
  · rw [empty, decide_eq_true_iff, ← hcount, List.length_eq_zero_iff]
    constructor
    · rintro rfl number request hwaits
      exact List.not_mem_nil ((hlines.mem_iff number request).2 hwaits)
    · intro hnone
      refine List.eq_nil_iff_forall_not_mem.2 fun entry hmem => ?_
      exact hnone entry.1 entry.2 ((hlines.mem_iff _ _).1 hmem)
  · have hok := (run ops).enqueue_ok_iff request
    cases hresult : ((run ops).enqueue request).1 with
    | ok =>
        have hlt := hok.1 hresult
        rw [size]
        exact ⟨fun h => (by cases h), fun h => absurd h hlt.ne⟩
    | full =>
        refine ⟨fun _ => ?_, fun _ => rfl⟩
        rw [size]
        by_contra hne
        rw [hok.2 (lt_of_le_of_ne hle hne)] at hresult
        cases hresult
  · rw [(run ops).enqueue_of_eq request h]

end DaliCommandQueue

end DaliEdge
