import DaliEdge.CallTimes
import DaliEdge.CapabilityRuns
import DaliEdge.ClientSimulation

/-!
# How long a scan takes

To its query client a run of a manager is nothing but the queries that it sends, one after the
other: 64 for each scan, and at most four for each detection. Over an idle pipeline the record of
the bus falls into one block of events for each of them. So what one query may take bounds what the
run may take, and a scan of a bus where nothing answers takes nearly as long as it may.
-/

namespace DaliEdge

section Queries

variable {σ : Type*} (client : IDaliQueryClient σ)

/-- The queries, one after the other, lead from one state of the client to the other. -/
inductive IDaliQueryClient.Queried : List Query → σ → σ → Prop
  | none (s : σ) : Queried [] s s
  | query {queries : List Query} {s s' : σ} (before : Queried queries s s')
      (address : ShortAddress) (command : DaliCommand) (priority : CommandPriority) :
      Queried
        (queries ++ [⟨address, command, priority, (client.query address command priority s').1⟩]) s
        (client.query address command priority s').2

theorem IDaliQueryClient.Queried.trans {client : IDaliQueryClient σ} {xs ys : List Query}
    {s s' s'' : σ} (h : client.Queried xs s s') (h' : client.Queried ys s' s'') :
    client.Queried (xs ++ ys) s s'' := by
  induction h' with
  | none s =>
      rw [List.append_nil]
      exact h
  | query _ address command priority ih =>
      rw [← List.append_assoc]
      exact .query (ih h) address command priority

namespace DeviceManager

theorem logged_simulates (start : σ) :
    client.Simulates (fun s t => t.1 = s ∧ client.Queried t.2 start s) (logged client) := by
  rintro address command priority s ⟨_, log⟩ ⟨rfl, hqueried⟩
  exact ⟨rfl, rfl, hqueried.query address command priority⟩

theorem queried_issued (state : ManagerState σ) (op : ManagerOp σ)
    (hown : ∀ flags s, op ≠ .elsewhere flags s) :
    client.Queried (issued client state op) state.client
      ((managed client).step state op).1.client := by
  let R := fun (s : σ) (t : σ × List Query) => t.1 = s ∧ client.Queried t.2 state.client s
  have hcall : SameCall R op op.unlogged := by
    cases op with
    | scanPresence nowMs => exact .scanPresence nowMs
    | detectCoreCapabilities address nowMs => exact .detectCoreCapabilities address nowMs
    | upsert address nowMs => exact .upsert address nowMs
    | elsewhere flags s => exact absurd rfl (hown flags s)
  have hstart : Matches R state state.unlogged := ⟨rfl, rfl, rfl, .none _⟩
  exact (managed_step_simulates (logged_simulates client state.client) hstart hcall).1.client.2

theorem queried_sent (state : ManagerState σ) (ops : List (ManagerOp σ))
    (hown : ∀ flags s, .elsewhere flags s ∉ ops) :
    client.Queried (sent client state ops) state.client
      ((managed client).after state ops).client := by
  induction ops using List.reverseRecOn with
  | nil => exact .none _
  | append_singleton ops op ih =>
      rw [sent_snoc, Machine.after_snoc]
      refine (ih fun flags s hmem => hown flags s (List.mem_append_left _ hmem)).trans ?_
      exact queried_issued client _ op fun flags s heq =>
        hown flags s (List.mem_append_right _ (List.mem_singleton.2 heq.symm))

/-! ## The number of queries -/

def ManagerOp.leastQueries : ManagerOp σ → ℕ
  | .scanPresence _ => 64
  | _ => 0

def ManagerOp.mostQueries : ManagerOp σ → ℕ
  | .scanPresence _ => 64
  | .detectCoreCapabilities _ _ => 4
  | _ => 0

theorem length_probeQueries_le (address : ShortAddress) (nowMs : UInt64) (ps : List CoreProbe)
    (probed : DaliDeviceRecord × σ) :
    (probeQueries client address nowMs ps probed).length ≤ ps.length := by
  induction ps generalizing probed with
  | nil => exact le_rfl
  | cons p ps ih =>
      have hprobe : (probeQuery client address p.feature p.command probed).length ≤ 1 := by
        unfold probeQuery
        split_ifs
        · exact Nat.zero_le _
        · exact le_rfl
      rw [probeQueries, List.length_append, List.length_cons, Nat.add_comm]
      exact add_le_add (ih _) hprobe

theorem length_issued (state : ManagerState σ) (op : ManagerOp σ) :
    op.leastQueries ≤ (issued client state op).length ∧
      (issued client state op).length ≤ op.mostQueries := by
  cases op with
  | scanPresence nowMs =>
      rw [issued_scanPresence, presenceQueries, List.length_map, List.length_finRange]
      exact ⟨le_rfl, le_rfl⟩
  | detectCoreCapabilities address nowMs =>
      refine ⟨Nat.zero_le _, ?_⟩
      rw [issued_detectCoreCapabilities, detectionQueries]
      cases state.registry.find address with
      | none => exact Nat.zero_le _
      | some record => exact length_probeQueries_le client address nowMs coreProbes _
  | upsert address nowMs => exact ⟨le_rfl, le_rfl⟩
  | elsewhere flags s => exact ⟨le_rfl, le_rfl⟩

theorem length_sent (state : ManagerState σ) (ops : List (ManagerOp σ)) :
    (ops.map ManagerOp.leastQueries).sum ≤ (sent client state ops).length ∧
      (sent client state ops).length ≤ (ops.map ManagerOp.mostQueries).sum := by
  induction ops using List.reverseRecOn with
  | nil => exact ⟨le_rfl, le_rfl⟩
  | append_singleton ops op ih =>
      obtain ⟨hleast, hmost⟩ := length_issued client ((managed client).after state ops) op
      rw [sent_snoc, List.length_append, List.map_append, List.map_append, List.sum_append,
        List.sum_append, List.map_singleton, List.map_singleton, List.sum_singleton,
        List.sum_singleton]
      exact ⟨add_le_add ih.1 hleast, add_le_add ih.2 hmost⟩

end DeviceManager

end Queries

open PipelineQueryClient BusEvent

/-- The events of one query: only its frame is transmitted, and it takes what the client allows. -/
structure Asks (timeoutMs : UInt32) (maxRetries : UInt8) (query : Query) (events : List BusEvent) :
    Prop where
  frame : ∀ frame ∈ events.filterMap transmitted,
    frame = (makeShortCommand query.address query.command).raw
  takes : Takes timeoutMs maxRetries 1 events

/-- Queries that take what they may, taken together. -/
theorem takes_flatten {timeoutMs : UInt32} {maxRetries : UInt8} {queries : List Query}
    {blocks : List (List BusEvent)} (h : List.Forall₂ (Asks timeoutMs maxRetries) queries blocks) :
    Takes timeoutMs maxRetries queries.length blocks.flatten := by
  induction h with
  | nil => exact Takes.nil
  | cons hasks _ ih =>
      rw [List.length_cons, Nat.add_comm]
      exact hasks.takes.append ih

variable {τ : Type*} (phy : IDaliPhy τ) (delay : IDelayProvider τ)

/-- Queries that follow each other on an idle pipeline, each with its own block of events. -/
theorem asks_of_queried {queries : List Query}
    {s s' : PipelineQueryClient × Station (τ × LcgJitter)}
    (hqueried : (toQueryClient (.jittered phy delay)).Queried queries s s') (h : s.1.Admissible)
    (hidle : s.2.Idle) :
    s'.1.timeoutMs = s.1.timeoutMs ∧ s'.1.maximumRetries = s.1.maximumRetries ∧ s'.2.Idle ∧
      ∃ blocks, Bus.Extends s.2.bus s'.2.bus blocks.flatten ∧
        List.Forall₂ (Asks s.1.timeoutMs s.1.maximumRetries) queries blocks := by
  induction hqueried with
  | none s => exact ⟨rfl, rfl, hidle, [], Bus.Extends.refl _, .nil⟩
  | @query queries s s' _ address command priority ih =>
      obtain ⟨htimeout, hretries, hidle₁, blocks, hextends, hasks⟩ := ih h hidle
      have hadmissible : s'.1.Admissible := by
        rw [PipelineQueryClient.Admissible, htimeout, hretries]
        exact h
      obtain ⟨-, hclient, hidle₂, -⟩ :=
        query_of_idle (.jittered phy delay) s'.1 address command priority hidle₁
      obtain ⟨events, hextends', hframe, htakes⟩ :=
        query_takes phy delay s'.1 hadmissible address command priority hidle₁
      rw [htimeout, hretries] at htakes
      have hsettings :
          ((toQueryClient (.jittered phy delay)).query address command priority s').2.1 =
            { s'.1 with nextSequence := s'.1.nextSequence + 1 } := hclient
      refine ⟨?_, ?_, hidle₂, blocks ++ [events], ?_, ?_⟩
      · rw [hsettings, htimeout]
      · rw [hsettings, hretries]
      · rw [List.flatten_append, List.flatten_singleton]
        exact hextends.trans hextends'
      · exact List.rel_append hasks (.cons ⟨hframe, htakes⟩ .nil)

namespace DeviceManager

/-- A manager that is the only user of its pipeline, over any PHY: its run is the queries that it
sends, as many as its scans and detections say, and the record of the bus is one block of events
for each of them. Each query transmits its frame, and takes, as its client's settings say, and so
the run takes no longer than all of them. -/
theorem run_takes (state : ManagerState (PipelineQueryClient × Station (τ × LcgJitter)))
    (hadmissible : state.client.1.Admissible) (hidle : state.client.2.Idle)
    (ops : List (ManagerOp (PipelineQueryClient × Station (τ × LcgJitter))))
    (hown : ∀ flags s, .elsewhere flags s ∉ ops) :
    let client := toQueryClient (.jittered phy delay)
    let after := (managed client).after state ops
    let queries := sent client state ops
    client.Queried queries state.client after.client ∧
      (ops.map ManagerOp.leastQueries).sum ≤ queries.length ∧
      queries.length ≤ (ops.map ManagerOp.mostQueries).sum ∧
      ∃ blocks, Bus.Extends state.client.2.bus after.client.2.bus blocks.flatten ∧
        List.Forall₂ (Asks state.client.1.timeoutMs state.client.1.maximumRetries) queries blocks ∧
        Takes state.client.1.timeoutMs state.client.1.maximumRetries queries.length
          blocks.flatten := by
  intro client after queries
  have hqueried := queried_sent client state ops hown
  obtain ⟨hleast, hmost⟩ := length_sent client state ops
  obtain ⟨-, -, -, blocks, hextends, hasks⟩ := asks_of_queried phy delay hqueried hadmissible hidle
  exact ⟨hqueried, hleast, hmost, blocks, hextends, hasks, takes_flatten hasks⟩

/-- A scan and a detection over a PHY that takes every frame and never hears an answer. -/
theorem run_takes_example :
    let phy : IDaliPhy Unit := ⟨fun _ s => (.ok, s), fun byte _ s => (.timeout, byte, s)⟩
    let state : ManagerState (PipelineQueryClient × Station (Unit × LcgJitter)) :=
      ⟨{}, Vector.replicate 64 false, ({}, Station.initial ((), {}))⟩
    let client := toQueryClient (.jittered phy ⟨fun _ s => s⟩)
    let after := (managed client).after state
      [.scanPresence 5, .detectCoreCapabilities (.ofIndex 0) 9]
    let queries := sent client state [.scanPresence 5, .detectCoreCapabilities (.ofIndex 0) 9]
    client.Queried queries state.client after.client ∧ 64 ≤ queries.length ∧ queries.length ≤ 68 ∧
      ∃ blocks, Bus.Extends state.client.2.bus after.client.2.bus blocks.flatten ∧
        List.Forall₂ (Asks 20 3) queries blocks ∧ Takes 20 3 queries.length blocks.flatten :=
  run_takes ⟨fun _ s => (.ok, s), fun byte _ s => (.timeout, byte, s)⟩ ⟨fun _ s => s⟩
    ⟨{}, Vector.replicate 64 false, ({}, Station.initial ((), {}))⟩ ⟨by decide, by decide⟩ rfl
    [.scanPresence 5, .detectCoreCapabilities (.ofIndex 0) 9] (by simp)

/-- A scan of a bus where nothing answers keeps the default client for nearly three minutes. -/
example : 64 * leastWait 20 4 3 = 171520 := by decide

end DeviceManager

end DaliEdge
