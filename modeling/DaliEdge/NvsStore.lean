import DaliEdge.Machine
import Mathlib.Data.List.Monad
import Mathlib.Data.UInt

/-!
# The metadata store

The store keeps no state of its own: an operation is a conversation with the flash driver, which may
refuse at any point. A ledger reads the conversation call by call and takes only what the driver's
rules allow. Whatever the driver answers, the ledger takes all that the store says, the handle that
an operation opens is closed when it returns, and the values that are committed are those whose save
was answered with success.
-/

namespace DaliEdge

/-- The results that the store tells apart. -/
inductive NvsResult
  | ok
  | noFreePages
  | newVersionFound
  | other (code : ℤ)
  deriving DecidableEq

inductive NvsOpenMode
  | readonly
  | readwrite
  deriving DecidableEq

/-- The functions of the driver, each with the state that it leaves. -/
structure NvsDriver (σ : Type*) where
  flashInit : σ → NvsResult × σ
  flashErase : σ → NvsResult × σ
  openNamespace : String → NvsOpenMode → σ → (NvsResult × UInt32) × σ
  setU32 : UInt32 → String → UInt32 → σ → NvsResult × σ
  getU32 : UInt32 → String → UInt32 → σ → (NvsResult × UInt32) × σ
  commit : UInt32 → σ → NvsResult × σ
  close : UInt32 → σ → σ

inductive NvsCall
  | flashInit (result : NvsResult)
  | flashErase (result : NvsResult)
  | openNamespace (name : String) (mode : NvsOpenMode) (handle : UInt32) (result : NvsResult)
  | setU32 (handle : UInt32) (key : String) (value : UInt32) (result : NvsResult)
  | getU32 (handle : UInt32) (key : String) (value : UInt32) (result : NvsResult)
  | commit (handle : UInt32) (result : NvsResult)
  | close (handle : UInt32)

/-- The driver's state and what it has been called with. -/
structure NvsFlash (σ : Type*) where
  state : σ
  calls : List NvsCall := []

namespace NvsFlash

variable {σ : Type*} (driver : NvsDriver σ) (flash : NvsFlash σ)

def flashInit : NvsResult × NvsFlash σ :=
  let answer := driver.flashInit flash.state
  (answer.1, ⟨answer.2, flash.calls ++ [.flashInit answer.1]⟩)

def flashErase : NvsResult × NvsFlash σ :=
  let answer := driver.flashErase flash.state
  (answer.1, ⟨answer.2, flash.calls ++ [.flashErase answer.1]⟩)

def openNamespace (name : String) (mode : NvsOpenMode) : (NvsResult × UInt32) × NvsFlash σ :=
  let answer := driver.openNamespace name mode flash.state
  (answer.1, ⟨answer.2, flash.calls ++ [.openNamespace name mode answer.1.2 answer.1.1]⟩)

def setU32 (handle : UInt32) (key : String) (value : UInt32) : NvsResult × NvsFlash σ :=
  let answer := driver.setU32 handle key value flash.state
  (answer.1, ⟨answer.2, flash.calls ++ [.setU32 handle key value answer.1]⟩)

def getU32 (handle : UInt32) (key : String) (value : UInt32) :
    (NvsResult × UInt32) × NvsFlash σ :=
  let answer := driver.getU32 handle key value flash.state
  (answer.1, ⟨answer.2, flash.calls ++ [.getU32 handle key answer.1.2 answer.1.1]⟩)

def commit (handle : UInt32) : NvsResult × NvsFlash σ :=
  let answer := driver.commit handle flash.state
  (answer.1, ⟨answer.2, flash.calls ++ [.commit handle answer.1]⟩)

def close (handle : UInt32) : NvsFlash σ :=
  ⟨driver.close handle flash.state, flash.calls ++ [.close handle]⟩

end NvsFlash

namespace NvsMetadataStore

variable {σ : Type*} (driver : NvsDriver σ) (flash : NvsFlash σ)

abbrev kNamespace : String := "dali_meta"

def init : NvsResult × NvsFlash σ :=
  let first := flash.flashInit driver
  if first.1 = .noFreePages ∨ first.1 = .newVersionFound then
    let erased := first.2.flashErase driver
    if erased.1 ≠ .ok then erased
    else erased.2.flashInit driver
  else first

def saveUint32 (key : String) (value : UInt32) : NvsResult × NvsFlash σ :=
  let opened := flash.openNamespace driver kNamespace .readwrite
  if opened.1.1 ≠ .ok then (opened.1.1, opened.2)
  else
    let set := opened.2.setU32 driver opened.1.2 key value
    let done := if set.1 = .ok then set.2.commit driver opened.1.2 else set
    (done.1, done.2.close driver opened.1.2)

/-- The result, and what the caller's variable holds then. -/
def loadUint32 (key : String) (value : UInt32) : (NvsResult × UInt32) × NvsFlash σ :=
  let opened := flash.openNamespace driver kNamespace .readonly
  if opened.1.1 ≠ .ok then ((opened.1.1, value), opened.2)
  else
    let got := opened.2.getU32 driver opened.1.2 key value
    (got.1, got.2.close driver opened.1.2)

end NvsMetadataStore

/-! ## The driver's rules -/

/-- Where a conversation with the driver stands. -/
inductive NvsPhase
  | idle (refused : Bool)
  | opened (mode : NvsOpenMode) (handle : UInt32)
  | written (handle : UInt32) (key : String) (value : UInt32)
  | finished (handle : UInt32)

/-- The conversation so far: the entries that were committed and those that were read. -/
structure NvsLedger where
  phase : NvsPhase := .idle false
  stored : List (String × UInt32) := []
  fetched : List (String × UInt32) := []

namespace NvsLedger

def entry (result : NvsResult) (key : String) (value : UInt32) : List (String × UInt32) :=
  if result = .ok then [(key, value)] else []

/-- One call, refused where the rules do not allow it. The flash is erased only right after an
initialisation that asks for it, a handle is used between its opening and its closing and once each,
a value is set only through a handle opened for writing, and only a set value is committed. -/
def read (ledger : NvsLedger) (call : NvsCall) : Option NvsLedger :=
  match ledger.phase, call with
  | .idle _, .flashInit result =>
      some { ledger with
        phase := .idle (decide (result = .noFreePages ∨ result = .newVersionFound)) }
  | .idle true, .flashErase _ => some { ledger with phase := .idle false }
  | .idle _, .openNamespace _ mode handle result =>
      some { ledger with phase := if result = .ok then .opened mode handle else .idle false }
  | .opened .readwrite opened, .setU32 handle key value result =>
      if handle = opened then
        some { ledger with
          phase := if result = .ok then .written handle key value else .finished handle }
      else none
  | .written opened key value, .commit handle result =>
      if handle = opened then
        some { ledger with
          phase := .finished handle, stored := ledger.stored ++ entry result key value }
      else none
  | .opened .readonly opened, .getU32 handle key value result =>
      if handle = opened then
        some { ledger with
          phase := .finished handle, fetched := ledger.fetched ++ entry result key value }
      else none
  | .finished opened, .close handle =>
      if handle = opened then some { ledger with phase := .idle false } else none
  | _, _ => none

end NvsLedger

inductive NvsRequest
  | init
  | saveUint32 (key : String) (value : UInt32)
  | loadUint32 (key : String) (value : UInt32)

namespace NvsRequest

def saved : NvsRequest → NvsResult × UInt32 → List (String × UInt32)
  | saveUint32 key value, answer => NvsLedger.entry answer.1 key value
  | _, _ => []

def loaded : NvsRequest → NvsResult × UInt32 → List (String × UInt32)
  | loadUint32 key _, answer => NvsLedger.entry answer.1 key answer.2
  | _, _ => []

end NvsRequest

namespace NvsFlash

variable {σ : Type*}

def ledger (flash : NvsFlash σ) : Option NvsLedger := flash.calls.foldlM NvsLedger.read {}

theorem ledger_snoc {flash : NvsFlash σ} {before : NvsLedger} (h : flash.ledger = some before)
    (state : σ) (call : NvsCall) :
    (⟨state, flash.calls ++ [call]⟩ : NvsFlash σ).ledger = before.read call := by
  unfold NvsFlash.ledger at h ⊢
  rw [List.foldlM_append, h]
  simp only [List.foldlM_cons, List.foldlM_nil, Option.bind_eq_bind, Option.bind_some,
    Option.pure_def, Option.bind_fun_some]

end NvsFlash

namespace NvsMetadataStore

variable {σ : Type*} (driver : NvsDriver σ) {flash : NvsFlash σ} {refused : Bool}
  {stored fetched : List (String × UInt32)}

def machine : Machine (NvsFlash σ) NvsRequest (NvsResult × UInt32) where
  step flash
    | .init => let done := init driver flash; (done.2, done.1, 0)
    | .saveUint32 key value => let done := saveUint32 driver flash key value; (done.2, done.1, 0)
    | .loadUint32 key value => let done := loadUint32 driver flash key value; (done.2, done.1)

theorem ledger_flashInit (h : flash.ledger = some ⟨.idle refused, stored, fetched⟩) :
    (flash.flashInit driver).2.ledger =
      some ⟨.idle (decide ((flash.flashInit driver).1 = .noFreePages ∨
        (flash.flashInit driver).1 = .newVersionFound)), stored, fetched⟩ := by
  unfold NvsFlash.flashInit
  rw [NvsFlash.ledger_snoc h]
  cases refused <;> rfl

theorem ledger_flashErase (h : flash.ledger = some ⟨.idle true, stored, fetched⟩) :
    (flash.flashErase driver).2.ledger = some ⟨.idle false, stored, fetched⟩ := by
  unfold NvsFlash.flashErase
  rw [NvsFlash.ledger_snoc h]
  rfl

theorem ledger_init (h : flash.ledger = some ⟨.idle refused, stored, fetched⟩) :
    ∃ refused', (init driver flash).2.ledger = some ⟨.idle refused', stored, fetched⟩ := by
  have hfirst := ledger_flashInit driver h
  simp only [init]
  split_ifs with hrefused hfailed
  · rw [decide_eq_true hrefused] at hfirst
    exact ⟨_, ledger_flashErase driver hfirst⟩
  · rw [decide_eq_true hrefused] at hfirst
    exact ⟨_, ledger_flashInit driver (ledger_flashErase driver hfirst)⟩
  · exact ⟨_, hfirst⟩

theorem ledger_openNamespace (h : flash.ledger = some ⟨.idle refused, stored, fetched⟩)
    (name : String) (mode : NvsOpenMode) :
    (flash.openNamespace driver name mode).2.ledger =
      some ⟨if (flash.openNamespace driver name mode).1.1 = .ok then
        .opened mode (flash.openNamespace driver name mode).1.2 else .idle false,
        stored, fetched⟩ := by
  unfold NvsFlash.openNamespace
  rw [NvsFlash.ledger_snoc h]
  cases refused <;> rfl

theorem ledger_close {handle : UInt32}
    (h : flash.ledger = some ⟨.finished handle, stored, fetched⟩) :
    (flash.close driver handle).ledger = some ⟨.idle false, stored, fetched⟩ := by
  unfold NvsFlash.close
  rw [NvsFlash.ledger_snoc h]
  exact if_pos rfl

theorem ledger_saveUint32 (h : flash.ledger = some ⟨.idle refused, stored, fetched⟩)
    (key : String) (value : UInt32) :
    let done := saveUint32 driver flash key value
    done.2.ledger = some ⟨.idle false, stored ++ NvsLedger.entry done.1 key value, fetched⟩ := by
  have hopened := ledger_openNamespace driver h kNamespace .readwrite
  simp only [saveUint32]
  generalize flash.openNamespace driver kNamespace .readwrite = opened at hopened ⊢
  by_cases hok : opened.1.1 = .ok
  · rw [if_pos hok] at hopened
    have hset : (opened.2.setU32 driver opened.1.2 key value).2.ledger =
        some ⟨if (opened.2.setU32 driver opened.1.2 key value).1 = .ok then
          .written opened.1.2 key value else .finished opened.1.2, stored, fetched⟩ :=
      (NvsFlash.ledger_snoc hopened _ _).trans (if_pos rfl)
    generalize opened.2.setU32 driver opened.1.2 key value = set at hset ⊢
    rw [if_neg (not_not_intro hok)]
    by_cases hwritten : set.1 = .ok
    · rw [if_pos hwritten] at hset
      have hcommit : (set.2.commit driver opened.1.2).2.ledger = some ⟨.finished opened.1.2,
          stored ++ NvsLedger.entry (set.2.commit driver opened.1.2).1 key value, fetched⟩ :=
        (NvsFlash.ledger_snoc hset _ _).trans (if_pos rfl)
      rw [if_pos hwritten]
      exact ledger_close driver hcommit
    · rw [if_neg hwritten] at hset ⊢
      rw [NvsLedger.entry, if_neg hwritten, List.append_nil]
      exact ledger_close driver hset
  · rw [if_neg hok] at hopened
    rw [if_pos hok, NvsLedger.entry, if_neg hok, List.append_nil]
    exact hopened

theorem ledger_loadUint32 (h : flash.ledger = some ⟨.idle refused, stored, fetched⟩)
    (key : String) (value : UInt32) :
    let done := loadUint32 driver flash key value
    done.2.ledger =
      some ⟨.idle false, stored, fetched ++ NvsLedger.entry done.1.1 key done.1.2⟩ := by
  have hopened := ledger_openNamespace driver h kNamespace .readonly
  simp only [loadUint32]
  generalize flash.openNamespace driver kNamespace .readonly = opened at hopened ⊢
  by_cases hok : opened.1.1 = .ok
  · rw [if_pos hok] at hopened
    have hgot : (opened.2.getU32 driver opened.1.2 key value).2.ledger =
        some ⟨.finished opened.1.2, stored, fetched ++ NvsLedger.entry
          (opened.2.getU32 driver opened.1.2 key value).1.1 key
          (opened.2.getU32 driver opened.1.2 key value).1.2⟩ :=
      (NvsFlash.ledger_snoc hopened _ _).trans (if_pos rfl)
    rw [if_neg (not_not_intro hok)]
    exact ledger_close driver hgot
  · rw [if_neg hok] at hopened
    rw [if_pos hok, NvsLedger.entry, if_neg hok, List.append_nil]
    exact hopened

theorem ledger_step (h : flash.ledger = some ⟨.idle refused, stored, fetched⟩)
    (request : NvsRequest) :
    let answered := (machine driver).step flash request
    ∃ refused', answered.1.ledger = some ⟨.idle refused',
      stored ++ request.saved answered.2, fetched ++ request.loaded answered.2⟩ := by
  cases request with
  | init =>
      simp only [NvsRequest.saved, NvsRequest.loaded, List.append_nil]
      exact ledger_init driver h
  | saveUint32 key value =>
      simp only [NvsRequest.loaded, List.append_nil]
      exact ⟨_, ledger_saveUint32 driver h key value⟩
  | loadUint32 key value =>
      simp only [NvsRequest.saved, List.append_nil]
      exact ⟨_, ledger_loadUint32 driver h key value⟩

theorem ledger_after (h : flash.ledger = some ⟨.idle refused, stored, fetched⟩)
    (requests : List NvsRequest) :
    let answered := requests.zip ((machine driver).outputs flash requests)
    ∃ refused', ((machine driver).after flash requests).ledger = some ⟨.idle refused',
      stored ++ answered.flatMap (fun request => request.1.saved request.2),
      fetched ++ answered.flatMap (fun request => request.1.loaded request.2)⟩ := by
  induction requests generalizing flash refused stored fetched with
  | nil => exact ⟨refused, by simpa using h⟩
  | cons request requests ih =>
      obtain ⟨refused', hstep⟩ := ledger_step driver h request
      obtain ⟨refused'', hafter⟩ := ih hstep
      simp only [List.append_assoc] at hafter
      exact ⟨refused'', hafter⟩

/-- Whatever the driver answers, the conversation over any run keeps its rules and ends with no
handle open. The entries committed to the flash are those whose save was answered with success, in
order, and the entries read those that a load has returned. -/
theorem conversation_kept (state : σ) (requests : List NvsRequest) :
    let answered := requests.zip ((machine driver).outputs ⟨state, []⟩ requests)
    ∃ refused, ((machine driver).after ⟨state, []⟩ requests).calls.foldlM NvsLedger.read {} =
      some ⟨.idle refused,
        answered.flatMap (fun request => request.1.saved request.2),
        answered.flatMap (fun request => request.1.loaded request.2)⟩ := by
  have hinitial : (⟨state, []⟩ : NvsFlash σ).ledger = some ⟨.idle false, [], []⟩ := rfl
  obtain ⟨refused, hafter⟩ := ledger_after driver hinitial requests
  exact ⟨refused, hafter⟩

end NvsMetadataStore

end DaliEdge
