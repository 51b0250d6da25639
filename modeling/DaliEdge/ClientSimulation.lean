import DaliEdge.QueryLog

/-!
# Managers over related clients

A manager knows its query client by its answers only. So where two clients answer alike from
related states, and stay related, two managers over them report the same changes and keep the same
records, whatever is called on them and in which order.
-/

namespace DaliEdge

/-- From related states the two clients answer every query alike, and stay related. -/
def IDaliQueryClient.Simulates {σ τ : Type*} (R : σ → τ → Prop) (client : IDaliQueryClient σ)
    (abstract : IDaliQueryClient τ) : Prop :=
  ∀ address command priority s t, R s t →
    (client.query address command priority s).1 = (abstract.query address command priority t).1 ∧
      R (client.query address command priority s).2 (abstract.query address command priority t).2

namespace DeviceManager

variable {σ τ : Type*} {R : σ → τ → Prop} {client : IDaliQueryClient σ}
  {abstract : IDaliQueryClient τ}

theorem poll_simulates (h : client.Simulates R abstract) (raws : List (Fin 64)) {s : σ} {t : τ}
    (hst : R s t) :
    (poll client raws s).1 = (poll abstract raws t).1 ∧
      R (poll client raws s).2 (poll abstract raws t).2 := by
  induction raws generalizing s t with
  | nil => exact ⟨rfl, hst⟩
  | cons raw raws ih =>
      obtain ⟨hanswer, hnext⟩ := h (.ofIndex raw) .queryControlGearPresent .high s t hst
      obtain ⟨hrest, hlast⟩ := ih hnext
      refine ⟨?_, hlast⟩
      simp only [poll]
      rw [hanswer, hrest]

/-- Two managers in the middle of a detection, with the same record and related clients. -/
def Alike (R : σ → τ → Prop) (probed : DaliDeviceRecord × σ) (probed' : DaliDeviceRecord × τ) :
    Prop :=
  probed.1 = probed'.1 ∧ R probed.2 probed'.2

theorem probe_simulates (h : client.Simulates R abstract) (address : ShortAddress) (nowMs : UInt64)
    (p : CoreProbe) {probed : DaliDeviceRecord × σ} {probed' : DaliDeviceRecord × τ}
    (halike : Alike R probed probed') :
    Alike R (probe client address nowMs p.feature p.command p.destination probed)
      (probe abstract address nowMs p.feature p.command p.destination probed') := by
  obtain ⟨hrecord, hst⟩ := halike
  unfold probe
  rw [← hrecord]
  by_cases hstate : (probed.1.capabilities.at p.feature).state = .unsupported
  · rw [if_pos hstate, if_pos hstate]
    exact ⟨hrecord, hst⟩
  · obtain ⟨hanswer, hnext⟩ := h address p.command .high probed.2 probed'.2 hst
    rw [if_neg hstate, if_neg hstate]
    exact ⟨congrArg (receiveProbe nowMs p.feature p.destination · probed.1) hanswer, hnext⟩

theorem probeCore_simulates (h : client.Simulates R abstract) (address : ShortAddress)
    (nowMs : UInt64) {probed : DaliDeviceRecord × σ} {probed' : DaliDeviceRecord × τ}
    (halike : Alike R probed probed') :
    Alike R (probeCore client address nowMs probed) (probeCore abstract address nowMs probed') := by
  rw [probeCore_eq_probeAll, probeCore_eq_probeAll]
  exact List.foldl_rel halike fun p _ _ _ => probe_simulates h address nowMs p

theorem detectCoreCapabilities_simulates (h : client.Simulates R abstract) (address : ShortAddress)
    (nowMs : UInt64) (registry : DaliDeviceRegistry) {s : σ} {t : τ} (hst : R s t) :
    let detected := detectCoreCapabilities client address nowMs registry s
    let detected' := detectCoreCapabilities abstract address nowMs registry t
    detected.1 = detected'.1 ∧ detected.2.1 = detected'.2.1 ∧ R detected.2.2 detected'.2.2 := by
  unfold detectCoreCapabilities
  cases registry.find address with
  | none => exact ⟨rfl, rfl, hst⟩
  | some record =>
      have hstart : Alike R (record, s) (record, t) := ⟨rfl, hst⟩
      obtain ⟨hrecord, hclients⟩ := probeCore_simulates h address nowMs hstart
      dsimp only
      exact ⟨rfl, congrArg (registry.store address) hrecord, hclients⟩

/-! ## Operations -/

/-- Two managers with the same records and flags, over related clients. -/
structure Matches (R : σ → τ → Prop) (state : ManagerState σ) (state' : ManagerState τ) : Prop where
  registry : state.registry = state'.registry
  duplicateReported : state.duplicateReported = state'.duplicateReported
  client : R state.client state'.client

/-- The same call, or the same flags and related clients left by others. -/
inductive SameCall (R : σ → τ → Prop) : ManagerOp σ → ManagerOp τ → Prop
  | scanPresence (nowMs) : SameCall R (.scanPresence nowMs) (.scanPresence nowMs)
  | detectCoreCapabilities (address nowMs) :
      SameCall R (.detectCoreCapabilities address nowMs) (.detectCoreCapabilities address nowMs)
  | upsert (address nowMs) : SameCall R (.upsert address nowMs) (.upsert address nowMs)
  | elsewhere (flags) {s : σ} {t : τ} (h : R s t) :
      SameCall R (.elsewhere flags s) (.elsewhere flags t)

theorem managed_step_simulates (h : client.Simulates R abstract) {state : ManagerState σ}
    {state' : ManagerState τ} (hmatches : Matches R state state') {op : ManagerOp σ}
    {op' : ManagerOp τ} (hop : SameCall R op op') :
    Matches R ((managed client).step state op).1 ((managed abstract).step state' op').1 ∧
      ((managed client).step state op).2 = ((managed abstract).step state' op').2 := by
  obtain ⟨registry, flags, s⟩ := state
  obtain ⟨registry', flags', t⟩ := state'
  obtain ⟨rfl, rfl, hst⟩ := hmatches
  cases hop with
  | scanPresence nowMs =>
      obtain ⟨hanswers, hclients⟩ := poll_simulates h (List.finRange 64) hst
      simp only [managed]
      rw [scanPresence_eq_scripted client, scanPresence_eq_scripted abstract, hanswers]
      exact ⟨⟨rfl, rfl, hclients⟩, rfl⟩
  | detectCoreCapabilities address nowMs =>
      obtain ⟨hbatch, hregistry, hclients⟩ :=
        detectCoreCapabilities_simulates h address nowMs registry hst
      exact ⟨⟨hregistry, rfl, hclients⟩, hbatch⟩
  | upsert address nowMs => exact ⟨⟨rfl, rfl, hst⟩, rfl⟩
  | elsewhere flags hst' => exact ⟨⟨rfl, rfl, hst'⟩, rfl⟩

/-- Two managers over related clients, called alike, report the same. -/
theorem managed_simulates (h : client.Simulates R abstract) {state : ManagerState σ}
    {state' : ManagerState τ} (hmatches : Matches R state state') {ops : List (ManagerOp σ)}
    {ops' : List (ManagerOp τ)} (hops : List.Forall₂ (SameCall R) ops ops') :
    Matches R ((managed client).after state ops) ((managed abstract).after state' ops') ∧
      (managed client).outputs state ops = (managed abstract).outputs state' ops' := by
  induction hops generalizing state state' with
  | nil => exact ⟨hmatches, rfl⟩
  | cons hop _ ih =>
      obtain ⟨hnext, hbatch⟩ := managed_step_simulates h hmatches hop
      obtain ⟨hlast, hbatches⟩ := ih hnext
      rw [Machine.outputs_cons, Machine.outputs_cons, hbatch, hbatches]
      exact ⟨hlast, rfl⟩

end DeviceManager

end DaliEdge
