import DaliEdge.RoundRobin
import DaliEdge.SlotSweep
import Mathlib.Data.List.FinRange

/-!
# The poll scheduler

The scheduler keeps a due time for each kind of poll of each light. `next` scans the lights
from its cursor on and the kinds of a light in the order of the enumeration. Utilisations are
of any type with the comparisons the code makes, so that nothing is assumed of a number that
is not ordered with itself. Times are 64-bit words and wrap.
-/

namespace DaliEdge

inductive PollKind
  | status | presence | electrical | temperature | lifetime | identity | count
  deriving DecidableEq

namespace PollKind

/-- The cast of a kind index of the loop in `next`. -/
def ofIndex : Fin 6 → PollKind
  | 0 => .status
  | 1 => .presence
  | 2 => .electrical
  | 3 => .temperature
  | 4 => .lifetime
  | 5 => .identity

/-- The index of a kind's due time; the sentinel has none. -/
def index? : PollKind → Option (Fin 6)
  | .status => some 0
  | .presence => some 1
  | .electrical => some 2
  | .temperature => some 3
  | .lifetime => some 4
  | .identity => some 5
  | .count => none

@[simp] theorem index?_ofIndex (k : Fin 6) : (ofIndex k).index? = some k := by
  revert k
  decide

theorem eq_ofIndex {kind : PollKind} {k : Fin 6} (h : kind.index? = some k) : kind = ofIndex k := by
  cases kind with
  | count => cases h
  | status | presence | electrical | temperature | lifetime | identity =>
      cases h
      rfl

theorem ofIndex_injective : Function.Injective ofIndex := by
  intro k k' h
  have hindex := congrArg index? h
  rwa [index?_ofIndex, index?_ofIndex, Option.some.injEq] at hindex

end PollKind

inductive PollPriority
  | critical | high | normal | low
  deriving DecidableEq

structure LightPollContext where
  commandedOn : Bool := false
  warningActive : Bool := false
  recentFault : Bool := false
  observationStartedMs : UInt64 := 0
  deriving DecidableEq

structure PollRequest where
  address : UInt8 := 0
  kind : PollKind := .status
  priority : PollPriority := .normal
  estimatedDurationMs : UInt32 := 100
  deriving DecidableEq

/-- The arguments of a call of `next`. -/
structure PollCall (F : Type*) where
  nowMs : UInt64
  utilisation : F
  normalLimit : F
  diagnosticLimit : F

structure DaliScheduler.Slot where
  configured : Bool := false
  context : LightPollContext := {}
  dueMs : Vector UInt64 6 := Vector.replicate 6 0
  deriving DecidableEq

structure DaliScheduler where
  slots : Vector DaliScheduler.Slot 64 := Vector.replicate 64 {}
  roundRobinCursor : UInt8 := 0
  deriving DecidableEq

namespace DaliScheduler

def initial : DaliScheduler := {}

def storeSlot (s : DaliScheduler) (address : Fin 64) (slot : Slot) : DaliScheduler :=
  { s with slots := SlotSweep.put s.slots address slot }

def configuredDueMs (nowMs : UInt64) : Vector UInt64 6 :=
  #v[nowMs, nowMs + 30000, nowMs + 60000, nowMs + 60000, nowMs + 21600000, nowMs + 86400000]

def configure (s : DaliScheduler) (address : UInt8) (context : LightPollContext) (nowMs : UInt64) :
    DaliScheduler :=
  if h : address.toNat < 64 then
    s.storeSlot ⟨address.toNat, h⟩
      { configured := true, context := context, dueMs := configuredDueMs nowMs }
  else s

def priorityFor (kind : PollKind) (context : LightPollContext) : PollPriority :=
  if kind = .status ∧ (context.warningActive ∨ context.recentFault) then .critical
  else if kind = .status ∨ kind = .presence then .high
  else if kind = .identity ∨ kind = .lifetime then .low
  else .normal

def intervalFor (kind : PollKind) (context : LightPollContext) (nowMs : UInt64) : UInt64 :=
  match kind with
  | .status =>
      let elapsed :=
        if nowMs ≥ context.observationStartedMs then nowMs - context.observationStartedMs else 0
      if (context.warningActive ∨ context.recentFault) ∧ elapsed < 60000 then 2000
      else if (context.warningActive ∨ context.recentFault) ∧ elapsed < 360000 then 5000
      else if context.commandedOn then 5000 else 30000
  | .presence => 30000
  | .electrical => if context.warningActive ∨ context.recentFault then 10000 else 60000
  | .temperature => if context.warningActive then 10000 else 60000
  | .lifetime => 21600000
  | .identity => 86400000
  | .count => 0

def complete (s : DaliScheduler) (request : PollRequest) (nowMs : UInt64) : DaliScheduler :=
  if h : request.address.toNat < 64 then
    match request.kind.index? with
    | none => s
    | some index =>
        let slot := s.slots.get ⟨request.address.toNat, h⟩
        if slot.configured then
          s.storeSlot ⟨request.address.toNat, h⟩
            { slot with
                dueMs := slot.dueMs.set index (nowMs + intervalFor request.kind slot.context nowMs)
                  index.isLt }
        else s
  else s

section Next

variable {F : Type*} [Zero F] [LE F] [LT F] [DecidableLE F] [DecidableLT F]

def admits (request : PollRequest) (utilisation normalLimit diagnosticLimit : F) : Bool :=
  let limit := if request.priority = .critical then diagnosticLimit else normalLimit
  decide (0 ≤ utilisation) && decide (utilisation < limit) &&
    decide (request.estimatedDurationMs > 0)

def Slot.request (slot : Slot) (address : ℕ) (k : Fin 6) : PollRequest :=
  ⟨UInt8.ofNat address, .ofIndex k, priorityFor (.ofIndex k) slot.context, 100⟩

def Slot.poll (slot : Slot) (address : ℕ) (call : PollCall F) (k : Fin 6) : Option PollRequest :=
  if slot.dueMs.get k > call.nowMs then none
  else if admits (slot.request address k) call.utilisation call.normalLimit call.diagnosticLimit then
    some (slot.request address k)
  else none

/-- One pass of the loop over the lights: the request, and the cursor after it. -/
def visit (s : DaliScheduler) (call : PollCall F) (address : ℕ) : Option (PollRequest × UInt8) :=
  if h : address < 64 then
    let slot := s.slots.get ⟨address, h⟩
    if slot.configured then
      ((List.finRange 6).findSome? (slot.poll address call)).map fun request =>
        (request, UInt8.ofNat ((address + 1) % 64))
    else none
  else none

def next (s : DaliScheduler) (call : PollCall F) : Option PollRequest × DaliScheduler :=
  match RoundRobin.scan 64 (s.visit call) s.roundRobinCursor.toNat with
  | none => (none, s)
  | some (request, cursor) => (some request, { s with roundRobinCursor := cursor })

/-! ## What a call of `next` does -/

/-- The poll is due and admissible at the call. -/
def Ready (s : DaliScheduler) (call : PollCall F) (address : Fin 64) (k : Fin 6) : Prop :=
  (s.slots.get address).configured = true ∧ (s.slots.get address).dueMs.get k ≤ call.nowMs ∧
    admits ((s.slots.get address).request address k) call.utilisation call.normalLimit
      call.diagnosticLimit = true

instance (s : DaliScheduler) (call : PollCall F) (address : Fin 64) (k : Fin 6) :
    Decidable (s.Ready call address k) := inferInstanceAs (Decidable (_ ∧ _ ∧ _))

def Grants (s : DaliScheduler) (call : PollCall F) (address : Fin 64) (k : Fin 6) : Prop :=
  ∃ request, (s.next call).1 = some request ∧ request.address.toNat = address ∧
    request.kind = .ofIndex k

theorem Slot.poll_eq_some_iff (slot : Slot) (address : ℕ) (call : PollCall F) (k : Fin 6)
    (request : PollRequest) : slot.poll address call k = some request ↔
      (slot.dueMs.get k ≤ call.nowMs ∧ admits (slot.request address k) call.utilisation
        call.normalLimit call.diagnosticLimit = true) ∧ request = slot.request address k := by
  unfold Slot.poll
  by_cases hdue : slot.dueMs.get k ≤ call.nowMs
  · rw [if_neg (UInt64.not_lt.2 hdue)]
    split_ifs with hadmits
    · simp [hdue, hadmits, eq_comm]
    · simp [hadmits]
  · rw [if_pos (UInt64.not_le.1 hdue)]
    simp [hdue]

theorem visit_eq_some {s : DaliScheduler} {call : PollCall F} {address : ℕ}
    {r : PollRequest × UInt8} (h : s.visit call address = some r) :
    ∃ (a : Fin 64) (k : Fin 6), address = a ∧ s.Ready call a k ∧ (∀ k' < k, ¬ s.Ready call a k') ∧
      r = ((s.slots.get a).request a k, UInt8.ofNat ((a + 1) % 64)) := by
  unfold visit at h
  split_ifs at h with hlt
  simp only at h
  split_ifs at h with hconfigured
  obtain ⟨request, hfind, rfl⟩ := Option.map_eq_some_iff.1 h
  obtain ⟨before, k, behind, hrange, hpoll, hnone⟩ := List.findSome?_eq_some_iff.1 hfind
  obtain ⟨hready, rfl⟩ := (Slot.poll_eq_some_iff _ _ _ _ _).1 hpoll
  refine ⟨⟨address, hlt⟩, k, rfl, ⟨hconfigured, hready⟩, fun k' hk' hready' => ?_, rfl⟩
  have hmem : k' ∈ before ++ k :: behind := hrange ▸ List.mem_finRange k'
  have hsorted : (before ++ k :: behind).Pairwise (· < ·) := hrange ▸ List.pairwise_lt_finRange 6
  have hbefore : k' ∈ before := by
    rcases List.mem_append.1 hmem with hmem | hmem
    · exact hmem
    · rcases List.mem_cons.1 hmem with rfl | hmem
      · exact absurd hk' (lt_irrefl _)
      · have hlt' := (List.pairwise_cons.1 (List.pairwise_append.1 hsorted).2.1).1 k' hmem
        exact absurd hk' (lt_asymm hlt')
  have hsome := (Slot.poll_eq_some_iff _ address call k' _).2 ⟨hready'.2, rfl⟩
  rw [hnone k' hbefore] at hsome
  cases hsome

theorem visit_isSome {s : DaliScheduler} {call : PollCall F} {a : Fin 64} {k : Fin 6}
    (h : s.Ready call a k) : s.visit call a ≠ none := by
  obtain ⟨hconfigured, hready⟩ := h
  intro hnone
  rw [visit, dif_pos a.isLt, if_pos hconfigured, Option.map_eq_none_iff,
    List.findSome?_eq_none_iff] at hnone
  have hsome := (Slot.poll_eq_some_iff (s.slots.get a) a call k _).2 ⟨hready, rfl⟩
  rw [hnone k (List.mem_finRange k)] at hsome
  cases hsome

/-- A call grants nothing when no poll is ready. Otherwise it grants the first ready kind of the
nearest light that has one, and moves the cursor just behind that light. -/
theorem next_cases (s : DaliScheduler) (call : PollCall F) (hcursor : s.roundRobinCursor.toNat < 64) :
    ((∀ a k, ¬ s.Ready call a k) ∧ s.next call = (none, s)) ∨
    ∃ (a : Fin 64) (k : Fin 6), s.Ready call a k ∧ (∀ k' < k, ¬ s.Ready call a k') ∧
      (∀ b : Fin 64, RoundRobin.Nearer 64 s.roundRobinCursor.toNat b a →
        ∀ k', ¬ s.Ready call b k') ∧
      s.next call = (some ((s.slots.get a).request a k),
        { s with roundRobinCursor := UInt8.ofNat ((a + 1) % 64) }) := by
  unfold next
  cases hscan : RoundRobin.scan 64 (s.visit call) s.roundRobinCursor.toNat with
  | none =>
      refine .inl ⟨fun a k hready => ?_, rfl⟩
      exact visit_isSome hready ((RoundRobin.scan_eq_none_iff hcursor).1 hscan a a.isLt)
  | some r =>
      obtain ⟨_, -, hvisit, hnearest⟩ := RoundRobin.exists_of_scan_eq_some hcursor hscan
      obtain ⟨a, k, rfl, hready, hfirst, rfl⟩ := visit_eq_some hvisit
      refine .inr ⟨a, k, hready, hfirst, fun b hnear k' hready' => ?_, rfl⟩
      exact visit_isSome hready' (hnearest b b.isLt hnear)

end Next

/-! ## Runs -/

inductive Op (F : Type*)
  | configure (address : UInt8) (context : LightPollContext) (nowMs : UInt64)
  | next (call : PollCall F)
  | complete (request : PollRequest) (nowMs : UInt64)

variable {F : Type*} [Zero F] [LE F] [LT F] [DecidableLE F] [DecidableLT F]

/-- Only a call of `next` has a result. -/
def apply (s : DaliScheduler) : Op F → DaliScheduler × Option PollRequest
  | .configure address context nowMs => (s.configure address context nowMs, none)
  | .next call => ((s.next call).2, (s.next call).1)
  | .complete request nowMs => (s.complete request nowMs, none)

def machine : Machine DaliScheduler (Op F) (Option PollRequest) := ⟨apply⟩

/-- The scheduler after the operations, from a fresh one. -/
def run (ops : List (Op F)) : DaliScheduler := machine.after initial ops

theorem configure_cursor (s : DaliScheduler) (address : UInt8) (context : LightPollContext)
    (nowMs : UInt64) : (s.configure address context nowMs).roundRobinCursor = s.roundRobinCursor := by
  unfold configure
  split_ifs <;> rfl

theorem complete_cursor (s : DaliScheduler) (request : PollRequest) (nowMs : UInt64) :
    (s.complete request nowMs).roundRobinCursor = s.roundRobinCursor := by
  unfold complete
  split_ifs with h
  · cases request.kind.index? with
    | none => rfl
    | some index =>
        simp only
        split_ifs <;> rfl
  · rfl

theorem toNat_movedCursor (a : Fin 64) : (UInt8.ofNat ((a + 1) % 64)).toNat = (a + 1) % 64 :=
  UInt8.toNat_ofNat_of_lt' ((Nat.mod_lt _ (by decide)).trans (by decide))

theorem apply_cursor_lt (s : DaliScheduler) (op : Op F) (h : s.roundRobinCursor.toNat < 64) :
    (s.apply op).1.roundRobinCursor.toNat < 64 := by
  cases op with
  | configure address context nowMs => rwa [apply, configure_cursor]
  | complete request nowMs => rwa [apply, complete_cursor]
  | next call =>
      rw [apply]
      obtain ⟨-, heq⟩ | ⟨a, k, -, -, -, heq⟩ := s.next_cases call h
      · rwa [heq]
      · rw [heq, toNat_movedCursor]
        exact Nat.mod_lt _ (by decide)

theorem run_cursor_lt (ops : List (Op F)) : (run ops).roundRobinCursor.toNat < 64 :=
  machine.after_induction (P := fun s => s.roundRobinCursor.toNat < 64) apply_cursor_lt
    (by decide) ops

end DaliScheduler

end DaliEdge
