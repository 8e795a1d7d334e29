import Aionetx.Client.Heartbeats

/-!
# The client with every sender, and the state that its tasks share

`ClientHeartbeats` keeps each heartbeat sender with its connection, where `ClientRuntime` has one that is running or not. What the
client does with its connections and its senders is the same in both.

* `ClientRuntime.Shows` : the shared state, read off the client with every sender;
* `Shows.stopHeartbeatSender`, `Shows.requestClose`, `Shows.runClosedCallback`, `Shows.openConnection`, `Shows.endClosing` : the
  methods keep it;
* `Shows.closeTurn` : so does a close task.
-/

namespace Aionetx

namespace ClientRuntime

/-- The shared state, read off the client with every sender. -/
structure Shows (c : ClientRuntime) (s : ClientHeartbeats) : Prop where
  lifecycle : c.lifecycle = s.lifecycle
  connection : c.connection = s.connection
  connections : c.connections = s.connections
  nextConnection : c.nextConnection = s.nextConnection
  sender : c.heartbeatSender.map (·.running) = s.heartbeatSender.map fun i => s.senders[i]?.any (·.running)

variable {c : ClientRuntime} {s : ClientHeartbeats} {n : Nat}

theorem Shows.setConnection (h : c.Shows s) (n : Nat) (x : ClientConnection) :
    (c.setConnection n x).Shows (s.setConnection n x) where
  lifecycle := h.lifecycle
  connection := h.connection
  connections := by
    unfold ClientRuntime.setConnection ClientHeartbeats.setConnection
    rw [h.connections]
  nextConnection := h.nextConnection
  sender := h.sender

theorem Shows.requestClose (h : c.Shows s) (n : Nat) : (c.requestClose n).Shows (s.requestClose n) := by
  unfold ClientRuntime.requestClose ClientHeartbeats.requestClose
  rw [h.connections]
  exact h.setConnection n _

/-- The sender is detached, and awaited if its task is running. -/
theorem Shows.stopHeartbeatSender (h : c.Shows s) :
    c.stopHeartbeatSender.1.Shows s.stopHeartbeatSender.1 ∧ c.stopHeartbeatSender.2 = s.stopHeartbeatSender.2 := by
  have hsender := h.sender
  unfold ClientRuntime.stopHeartbeatSender ClientHeartbeats.stopHeartbeatSender
  cases hi : s.heartbeatSender with
  | none =>
    rw [hi] at hsender
    have hnone : c.heartbeatSender = none := Option.map_eq_none_iff.mp hsender
    refine ⟨⟨h.lifecycle, h.connection, h.connections, h.nextConnection, ?_⟩, ?_⟩
    · rw [hi]
      rfl
    · rw [hnone]
      rfl
  | some i =>
    rw [hi] at hsender
    obtain ⟨y, hy, hrunning⟩ := Option.map_eq_some_iff.mp hsender
    refine ⟨⟨h.lifecycle, h.connection, h.connections, h.nextConnection, rfl⟩, ?_⟩
    rw [hy]
    exact hrunning

/-- The callback of a connection leaves the client without it, and without its sender. -/
theorem Shows.runClosedCallback (h : c.Shows s) (n : Nat) : (c.runClosedCallback n).Shows (s.runClosedCallback n) := by
  have hclosed : (c.onConnectionClosed n).Shows (s.onConnectionClosed n) := by
    unfold ClientRuntime.onConnectionClosed ClientHeartbeats.onConnectionClosed
    rw [h.connection]
    split
    · exact ⟨h.lifecycle, rfl, h.connections, h.nextConnection, h.sender⟩
    · exact ⟨h.lifecycle, h.connection, h.connections, h.nextConnection, h.sender⟩
  obtain ⟨hstopped, hsuspended⟩ := hclosed.stopHeartbeatSender
  unfold ClientRuntime.runClosedCallback ClientHeartbeats.runClosedCallback
  dsimp only
  rw [hsuspended, hstopped.connections]
  obtain ⟨hlifecycle, hconnection, hconnections, hnext, hsender⟩ := hstopped.setConnection n
    ((s.onConnectionClosed n).stopHeartbeatSender.1.connections n |>.afterCallback (s.onConnectionClosed n).stopHeartbeatSender.2)
  exact ⟨hlifecycle, hconnection, hconnections, hnext, hsender⟩

/-- A segment of the close task of a connection does the same to both. -/
theorem Shows.closeTurn (h : c.Shows s) (hn : n < s.nextConnection) (outcome : Outcome) :
    Option.Rel Shows (c.closeTurn n outcome) (s.closeTurn n outcome) := by
  unfold ClientRuntime.closeTurn ClientHeartbeats.closeTurn
  rw [if_neg (Nat.not_le.mpr hn), h.connections]
  split
  · exact .some (h.runClosedCallback n)
  · cases (s.connections n).closeTurn outcome with
    | none => exact .none
    | some x => exact .some (h.setConnection n x)

theorem Shows.openConnection (h : c.Shows s) (run : Nat) : (c.openConnection run).Shows (s.openConnection run).1 := by
  have hset := h.setConnection s.nextConnection { run, state := .connected }
  unfold ClientRuntime.openConnection ClientHeartbeats.openConnection
  rw [h.nextConnection]
  dsimp only
  rw [hset.lifecycle]
  split
  · exact ⟨rfl, rfl, hset.connections, rfl, hset.sender⟩
  · exact ⟨rfl, hset.connection, hset.connections, rfl, hset.sender⟩

theorem Shows.startHeartbeatSender (h : c.Shows s) (settings : TcpClientSettings) (run n : Nat) :
    (c.startHeartbeatSender settings run).Shows (s.startHeartbeatSender settings n) := by
  unfold ClientRuntime.startHeartbeatSender ClientHeartbeats.startHeartbeatSender
  split
  · refine ⟨h.lifecycle, h.connection, h.connections, h.nextConnection, ?_⟩
    simp
  · exact ⟨h.lifecycle, h.connection, h.connections, h.nextConnection, rfl⟩

/-- The end of `_close_current_connection`, of the connection `n`. -/
theorem Shows.endClosing (h : c.Shows s) {closing : Closing} (hconnection : closing.connection = some n)
    (hstarting : closing.startingConnection = none) : (c.endClosing closing).Shows (s.endClosing n) := by
  refine ⟨h.lifecycle, ?_, h.connections, h.nextConnection, h.sender⟩
  unfold ClientRuntime.endClosing ClientHeartbeats.endClosing
  dsimp only
  rw [hconnection, hstarting, h.connection]
  cases s.connection with
  | none => simp
  | some m => simp

/-- `_close_current_connection` up to its await: the current connection is the one to close, unless it is closed. -/
theorem Shows.beginClosing (h : c.Shows s) (hstarting : c.startingConnection = none) :
    (c.beginClosing.1.closeNext c.beginClosing.2).1.Shows s.beginClosing.1 ∧
      (c.beginClosing.1.closeNext c.beginClosing.2).2.bind (·.targets.head?) = s.beginClosing.2 := by
  have hbegun : c.beginClosing.1.Shows s := ⟨h.lifecycle, h.connection, h.connections, h.nextConnection, h.sender⟩
  have hclosing : c.beginClosing.2 = ⟨s.connection, none, s.connection.toList.filter
      fun n => (s.connections n).state ≠ .closed⟩ := by
    unfold ClientRuntime.beginClosing
    rw [hstarting, h.connection, h.connections]
    cases s.connection with
    | none => rfl
    | some n =>
      by_cases hclosed : (s.connections n).state = .closed
      · simp [hclosed]
      · simp [hclosed, List.eraseDups_cons]
  rw [hclosing]
  unfold ClientHeartbeats.beginClosing
  cases hconnection : s.connection with
  | none =>
    refine ⟨⟨h.lifecycle, ?_, h.connections, h.nextConnection, h.sender⟩, rfl⟩
    show (if c.connection = none ∨ c.connection = none then none else c.connection) = s.connection
    rw [h.connection, hconnection]
    rfl
  | some n =>
    by_cases hclosed : (s.connections n).state = .closed
    · have hnone : [n].filter (fun n => decide ((s.connections n).state ≠ .closed)) = [] := by simp [hclosed]
      rw [Option.toList_some, hnone]
      simp only [if_pos hclosed]
      refine ⟨⟨h.lifecycle, ?_, h.connections, h.nextConnection, h.sender⟩, rfl⟩
      show (if c.connection = some n ∨ c.connection = none then none else c.connection) = none
      rw [h.connection, hconnection, if_pos (.inl rfl)]
    · have hsome : [n].filter (fun n => decide ((s.connections n).state ≠ .closed)) = [n] := by simp [hclosed]
      rw [Option.toList_some, hsome]
      simp only [if_neg hclosed]
      exact ⟨hbegun.requestClose n, rfl⟩

end ClientRuntime

end Aionetx
