import Aionetx.Server.Runtime

/-!
# The registry of the server

The dictionaries of the server are written by five sections on as many tasks. Whatever their order, the registry stays
within `max_connections`, no identifier is used twice, and a heartbeat sender that runs can be found by whoever has to
stop it.

* `ServerRegistry.Ok` : the dictionaries alone, with one lemma per section;
* `ServerRuntime.Inv` : the dictionaries and the tasks;
* `ServerRuntime.Registered` : what follows for every state of a run; `registered_of_reachable`.
-/

namespace Aionetx

open Runs

/-- The dictionaries fit each other and the identifiers given out. -/
structure ServerRegistry.Ok (max : Nat) (r : ServerRegistry) : Prop where
  capacity : r.connections.entries.length ≤ max
  own : ∀ id k, r.connections.lookup id = some k → r.connectionId k = id ∧ k ∈ r.accepted
  numbered : ∀ k ∈ r.accepted, ∃ p n, r.connectionId k = tcpServerConnectionId p n ∧ n ≤ r.connectionSequence
  distinct : (r.accepted.map r.connectionId).Nodup
  senderKeys : ∀ id k, r.heartbeatSenders.lookup id = some k → r.connections.lookup id = some k

namespace ServerRegistry.Ok

variable {max : Nat} {r : ServerRegistry}

/-- Two accepted clients with one identifier are one. -/
theorem eq_of_connectionId (h : r.Ok max) {k k' : Nat} (hk : k ∈ r.accepted) (hk' : k' ∈ r.accepted)
    (heq : r.connectionId k = r.connectionId k') : k = k' :=
  List.inj_on_of_nodup_map h.distinct hk hk' heq

theorem frame (h : r.Ok max) {r' : ServerRegistry} (hconnections : r'.connections = r.connections)
    (hsenders : r'.heartbeatSenders = r.heartbeatSenders) (haccepted : r'.accepted = r.accepted)
    (hid : r'.connectionId = r.connectionId) (hseq : r.connectionSequence ≤ r'.connectionSequence) : r'.Ok max := by
  refine ⟨hconnections ▸ h.capacity, ?_, ?_, ?_, ?_⟩
  · rw [hconnections, haccepted, hid]
    exact h.own
  · rw [haccepted, hid]
    intro k hk
    obtain ⟨p, n, hp, hn⟩ := h.numbered k hk
    exact ⟨p, n, hp, Nat.le_trans hn hseq⟩
  · rw [haccepted, hid]
    exact h.distinct
  · rw [hconnections, hsenders]
    exact h.senderKeys

/-- The next identifier has not been given to anybody. -/
theorem fresh (h : r.Ok max) (p : PeerName) {k : Nat} (hk : k ∈ r.accepted) :
    r.connectionId k ≠ tcpServerConnectionId p (r.connectionSequence + 1) := by
  obtain ⟨q, n, hq, hn⟩ := h.numbered k hk
  rw [hq]
  intro heq
  have hlt : n = r.connectionSequence + 1 := tcpServerConnectionId_injective heq
  omega

theorem fresh_not_mem (h : r.Ok max) (p : PeerName) :
    tcpServerConnectionId p (r.connectionSequence + 1) ∉ r.connections := by
  rw [← AList.lookup_eq_none, Option.eq_none_iff_forall_not_mem]
  intro k hk
  obtain ⟨hid, hacc⟩ := h.own _ k hk
  exact h.fresh p hacc hid

theorem accept (h : r.Ok max) {k : Nat} (hk : k ∉ r.accepted) (hroom : r.connections.entries.length < max) (p : PeerName) :
    (r.accept k p).Ok max := by
  have hnot := h.fresh_not_mem p
  have hid : ∀ k' ∈ r.accepted, (r.accept k p).connectionId k' = r.connectionId k' := fun k' hk' =>
    Function.update_of_ne (by rintro rfl; exact hk hk') ..
  have hself : (r.accept k p).connectionId k = tcpServerConnectionId p (r.connectionSequence + 1) :=
    Function.update_self ..
  refine ⟨?_, fun id k' hk' => ?_, fun k' hk' => ?_, ?_, fun id k' hk' => ?_⟩
  · change (r.connections.insert _ k).entries.length ≤ max
    rw [AList.entries_insert_of_notMem hnot]
    exact hroom
  · change (r.connections.insert _ k).lookup id = some k' at hk'
    by_cases heq : id = tcpServerConnectionId p (r.connectionSequence + 1)
    · rw [heq, AList.lookup_insert] at hk'
      cases hk'
      exact ⟨hself.trans heq.symm, List.mem_append_right _ (List.mem_singleton_self k)⟩
    · rw [AList.lookup_insert_ne heq] at hk'
      obtain ⟨hown, hacc⟩ := h.own id k' hk'
      exact ⟨(hid k' hacc).trans hown, List.mem_append_left _ hacc⟩
  · rcases List.mem_append.1 hk' with hk' | hk'
    · obtain ⟨q, n, hq, hn⟩ := h.numbered k' hk'
      exact ⟨q, n, (hid k' hk').trans hq, Nat.le_succ_of_le hn⟩
    · rw [List.mem_singleton] at hk'
      exact ⟨p, _, hk' ▸ hself, Nat.le_refl _⟩
  · change ((r.accepted ++ [k]).map _).Nodup
    rw [List.map_append, List.map_congr_left hid]
    refine h.distinct.append (List.nodup_singleton _) fun id hmem hsingle => ?_
    obtain ⟨k', hk', rfl⟩ := List.mem_map.1 hmem
    rw [List.map_singleton, List.mem_singleton, hself] at hsingle
    exact h.fresh p hk' hsingle
  · change (r.connections.insert _ k).lookup id = some k'
    have hold := h.senderKeys id k' hk'
    have hne : id ≠ tcpServerConnectionId p (r.connectionSequence + 1) := by
      rintro rfl
      rw [AList.lookup_eq_none.2 hnot] at hold
      cases hold
    rw [AList.lookup_insert_ne hne]
    exact hold

/-- The registered client is the one that the registry has under that identifier. -/
theorem lookup_of_mem (h : r.Ok max) {k : Nat} (hk : k ∈ r.accepted) (hmem : r.connectionId k ∈ r.connections) :
    r.connections.lookup (r.connectionId k) = some k := by
  obtain ⟨k', hk'⟩ := Option.isSome_iff_exists.1 (AList.lookup_isSome.2 hmem)
  obtain ⟨hid, hacc⟩ := h.own _ k' hk'
  rw [hk', h.eq_of_connectionId hacc hk hid]

theorem register (h : r.Ok max) {k : Nat} (hk : k ∈ r.accepted) (hmem : r.connectionId k ∈ r.connections) :
    (r.register k).Ok max := by
  refine ⟨h.capacity, h.own, h.numbered, h.distinct, fun id k' hk' => ?_⟩
  change (r.heartbeatSenders.insert _ k).lookup id = some k' at hk'
  by_cases heq : id = r.connectionId k
  · rw [heq, AList.lookup_insert] at hk'
    cases hk'
    exact heq ▸ h.lookup_of_mem hk hmem
  · rw [AList.lookup_insert_ne heq] at hk'
    exact h.senderKeys id k' hk'

theorem unregister (h : r.Ok max) (k : Nat) : (r.unregister k).Ok max := by
  refine ⟨h.capacity, h.own, h.numbered, h.distinct, fun id k' hk' => ?_⟩
  change (r.heartbeatSenders.erase _).lookup id = some k' at hk'
  by_cases heq : id = r.connectionId k
  · rw [heq, AList.lookup_erase] at hk'
    cases hk'
  · rw [AList.lookup_erase_ne heq] at hk'
    exact h.senderKeys id k' hk'

theorem stopSender (h : r.Ok max) (k : Nat) : (r.stopSender k).Ok max :=
  h.frame rfl rfl rfl rfl (Nat.le_refl _)

theorem detach (h : r.Ok max) (k : Nat) : (r.detach k).Ok max := by
  have hpopped : ({ r with
      heartbeatSenders := r.heartbeatSenders.erase (r.connectionId k)
      connections := r.connections.erase (r.connectionId k) } : ServerRegistry).Ok max := by
    refine ⟨Nat.le_trans (List.kerase_sublist _ _).length_le h.capacity, fun id k' hk' => ?_, h.numbered, h.distinct,
      fun id k' hk' => ?_⟩
    · change (r.connections.erase _).lookup id = some k' at hk'
      by_cases heq : id = r.connectionId k
      · rw [heq, AList.lookup_erase] at hk'
        cases hk'
      · rw [AList.lookup_erase_ne heq] at hk'
        exact h.own id k' hk'
    · change (r.heartbeatSenders.erase _).lookup id = some k' at hk'
      change (r.connections.erase _).lookup id = some k'
      by_cases heq : id = r.connectionId k
      · rw [heq, AList.lookup_erase] at hk'
        cases hk'
      · rw [AList.lookup_erase_ne heq] at hk' ⊢
        exact h.senderKeys id k' hk'
  unfold ServerRegistry.detach
  dsimp only
  split
  · exact hpopped.stopSender _
  · exact hpopped

theorem clear (h : r.Ok max) : r.clear.Ok max := by
  refine ⟨Nat.zero_le _, fun id k' hk' => ?_, h.numbered, h.distinct, fun id k' hk' => ?_⟩
  · cases (AList.lookup_empty id).symm.trans hk'
  · cases (AList.lookup_empty id).symm.trans hk'

end ServerRegistry.Ok

/-! ## The tasks -/

def ClientHandler.fresh : ClientHandler → Bool
  | .absent | .scheduled | .accepting | .rejecting => true
  | _ => false

/-- The client has been accepted, and its handler is not done with it. -/
def ClientHandler.initialising : ClientHandler → Bool
  | .opening | .registering | .unregistering | .failing => true
  | _ => false

/-- The handler does not register a heartbeat sender any more. -/
def ClientHandler.past : ClientHandler → Bool
  | .unregistering | .failing | .ended => true
  | _ => false

def ServerStop.plan : ServerStop → Option TcpServerTeardown
  | .announcing plan | .stoppingSenders plan _ | .closingConnections plan | .closingListener plan => some plan
  | _ => none

/-- The call is past the section of `_plan_stop`. -/
def ServerStop.past : ServerStop → Bool
  | .notCalled | .planning => false
  | _ => true

/-- The heartbeat senders that a stop has taken over and has yet to stop. -/
def ServerStop.left : ServerStop → List Nat
  | .announcing plan => plan.heartbeatSenders
  | .stoppingSenders _ left => left
  | _ => []

namespace ServerRuntime

structure Inv (max : Nat) (s : ServerRuntime) : Prop where
  registry : s.toServerRegistry.Ok max
  absent : ∀ k, s.clientCount ≤ k → (s.client k).handler = .absent
  fresh : ∀ k, (s.client k).handler.fresh → k ∉ s.accepted
  initialising : ∀ k, (s.client k).handler.initialising → k ∈ s.accepted
  started : ∀ k, s.sender k ≠ .idle → (s.client k).handler = .ended ∧ k ∈ s.accepted
  registered : ∀ id k, s.heartbeatSenders.lookup id = some k → (s.client k).handler.past
  owned : ∀ k, s.sender k = .running →
    s.heartbeatSenders.lookup (s.connectionId k) = some k ∨ ∃ j, k ∈ (s.stops j).left
  closing : ∀ k, (s.client k).close ≠ .notClosed → k ∈ s.accepted
  closed : ∀ k, (s.client k).close = .closed → s.connectionId k ∉ s.connections
  plannedSenders : ∀ j senders, s.planned j = some (.took senders) → ∀ k ∈ senders,
    (s.client k).handler.past ∧ (k ∈ (s.stops j).left ∨ s.sender k ≠ .running)
  plannedConnections : ∀ j plan, (s.stops j).plan = some plan → ∀ k ∈ plan.connections, k ∈ s.accepted
  entered : ∀ j, (s.stops j).past → s.planned j ≠ none
  waiter : ∀ j, (s.stops j).left ≠ [] → s.stopWaiter = some j

/-- The registry, the stops, and the clients but for their transports are left alone. -/
structure Unchanged (s s' : ServerRuntime) : Prop where
  registry : s'.toServerRegistry = s.toServerRegistry
  stops : s'.stops = s.stops
  planned : s'.planned = s.planned
  waiter : s'.stopWaiter = s.stopWaiter
  count : s'.clientCount = s.clientCount
  handler : ∀ k, (s'.client k).handler = (s.client k).handler
  close : ∀ k, (s'.client k).close = (s.client k).close

variable {settings : TcpServerSettings} {max : Nat} {s s' : ServerRuntime}

/-- Nothing but the lifecycle, the lock, the listeners and the calls of `start()` changes. -/
structure SameClients (s s' : ServerRuntime) : Prop where
  registry : s'.toServerRegistry = s.toServerRegistry
  stops : s'.stops = s.stops
  planned : s'.planned = s.planned
  waiter : s'.stopWaiter = s.stopWaiter
  count : s'.clientCount = s.clientCount
  client : s'.client = s.client

theorem SameClients.unchanged (h : SameClients s s') : Unchanged s s' :=
  ⟨h.registry, h.stops, h.planned, h.waiter, h.count, fun k => by rw [h.client], fun k => by rw [h.client]⟩

theorem Inv.unchanged (h : Inv max s) (hs : Unchanged s s') : Inv max s' := by
  obtain ⟨hregistry, hstops, hplanned, hwaiter, hcount, hhandler, hclose⟩ := hs
  have haccepted : s'.accepted = s.accepted := congrArg ServerRegistry.accepted hregistry
  have hconnections : s'.connections = s.connections := congrArg ServerRegistry.connections hregistry
  have hsenders : s'.heartbeatSenders = s.heartbeatSenders := congrArg ServerRegistry.heartbeatSenders hregistry
  have hsender : s'.sender = s.sender := congrArg ServerRegistry.sender hregistry
  have hid : s'.connectionId = s.connectionId := congrArg ServerRegistry.connectionId hregistry
  refine ⟨hregistry ▸ h.registry, ?_, ?_, ?_, ?_, ?_, ?_, ?_, ?_, ?_, ?_, ?_, ?_⟩
  · intro k hk
    rw [hhandler]
    exact h.absent k (hcount ▸ hk)
  · intro k
    rw [hhandler, haccepted]
    exact h.fresh k
  · intro k
    rw [hhandler, haccepted]
    exact h.initialising k
  · intro k
    rw [hsender, hhandler, haccepted]
    exact h.started k
  · intro id k
    rw [hsenders, hhandler]
    exact h.registered id k
  · intro k
    rw [hsender, hsenders, hid, hstops]
    exact h.owned k
  · intro k
    rw [hclose, haccepted]
    exact h.closing k
  · intro k
    rw [hclose, hid, hconnections]
    exact h.closed k
  · intro j senders htook k hk
    rw [hplanned] at htook
    rw [hstops, hhandler, hsender]
    exact h.plannedSenders j senders htook k hk
  · intro j plan hplan k hk
    rw [hstops] at hplan
    rw [haccepted]
    exact h.plannedConnections j plan hplan k hk
  · intro j
    rw [hstops, hplanned]
    exact h.entered j
  · intro j
    rw [hstops, hwaiter]
    exact h.waiter j

/-! ## `start()` touches no registry -/

theorem foldl_closeListener (l : List Nat) (s : ServerRuntime) :
    l.foldl closeListener s = { s with listening := (l.foldl closeListener s).listening } := by
  induction l generalizing s with
  | nil => rfl
  | cons i l ih =>
    rw [List.foldl_cons, ih]
    rfl

theorem applyLifecycleState_eq {target : ComponentLifecycleState} (h : s.applyLifecycleState target = some s') :
    s' = { s with lifecycle := s'.lifecycle } := by
  unfold applyLifecycleState at h
  split at h
  · cases h
    rfl
  · cases h
    rfl
  · cases h

theorem startSection_sameClients {i : Nat} (h : s.startSection i = some s') : SameClients s s' := by
  unfold startSection at h
  split at h
  · split_ifs at h
    · cases h
      exact ⟨rfl, rfl, rfl, rfl, rfl, rfl⟩
    · split at h
      · next s'' happly =>
        cases h
        rw [applyLifecycleState_eq happly]
        exact ⟨rfl, rfl, rfl, rfl, rfl, rfl⟩
      · cases h
        exact ⟨rfl, rfl, rfl, rfl, rfl, rfl⟩
  · split_ifs at h
    · cases h
      exact ⟨rfl, rfl, rfl, rfl, rfl, rfl⟩
    · cases h
      exact ⟨rfl, rfl, rfl, rfl, rfl, rfl⟩
  · cases h
    unfold adopt
    split_ifs
    · exact ⟨rfl, rfl, rfl, rfl, rfl, rfl⟩
    · exact ⟨rfl, rfl, rfl, rfl, rfl, rfl⟩
  · split at h
    · next s'' happly =>
      cases h
      rw [applyLifecycleState_eq happly]
      exact ⟨rfl, rfl, rfl, rfl, rfl, rfl⟩
    · cases h
      exact ⟨rfl, rfl, rfl, rfl, rfl, rfl⟩
  · cases h
    unfold rollBack
    dsimp only
    rw [foldl_closeListener]
    exact ⟨rfl, rfl, rfl, rfl, rfl, rfl⟩
  · cases h

theorem startTurn_sameClients {i : Nat} {ok : Bool} (h : s.startTurn i ok = some s') : SameClients s s' := by
  unfold startTurn at h
  split at h
  on_goal 1 => split_ifs at h; exact startSection_sameClients h
  on_goal 1 => split_ifs at h; exact startSection_sameClients h
  on_goal 1 => split_ifs at h; exact startSection_sameClients h
  on_goal 1 => split_ifs at h; exact startSection_sameClients h
  on_goal 1 => split_ifs at h; exact startSection_sameClients h
  · cases h
    exact ⟨rfl, rfl, rfl, rfl, rfl, rfl⟩
  · split_ifs at h
    cases h
    exact ⟨rfl, rfl, rfl, rfl, rfl, rfl⟩
  · split_ifs at h
    · cases h
      exact ⟨rfl, rfl, rfl, rfl, rfl, rfl⟩
    · cases h
      exact ⟨rfl, rfl, rfl, rfl, rfl, rfl⟩
  · cases h
    exact ⟨rfl, rfl, rfl, rfl, rfl, rfl⟩
  · split_ifs at h
    cases h
    exact ⟨rfl, rfl, rfl, rfl, rfl, rfl⟩
  · cases h
    exact ⟨rfl, rfl, rfl, rfl, rfl, rfl⟩
  · split_ifs at h
    cases h
    exact ⟨rfl, rfl, rfl, rfl, rfl, rfl⟩
  · cases h
  · cases h

/-! ## Clients -/

theorem closeTransport_unchanged (s : ServerRuntime) (k : Nat) : Unchanged s (s.closeTransport k) := by
  refine ⟨rfl, rfl, rfl, rfl, rfl, fun k' => ?_, fun k' => ?_⟩
  all_goals
    unfold closeTransport
    dsimp only
    by_cases hk : k' = k
    · subst hk
      rw [Function.update_self]
    · rw [Function.update_of_ne hk]

@[simp] theorem setHandler_handler_self (s : ServerRuntime) (k : Nat) (pc : ClientHandler) :
    ((s.setHandler k pc).client k).handler = pc := by
  simp [setHandler]

theorem setHandler_handler_of_ne (s : ServerRuntime) {k k' : Nat} (pc : ClientHandler) (h : k' ≠ k) :
    ((s.setHandler k pc).client k').handler = (s.client k').handler := by
  simp [setHandler, h]

@[simp] theorem setHandler_close (s : ServerRuntime) (k k' : Nat) (pc : ClientHandler) :
    ((s.setHandler k pc).client k').close = (s.client k').close := by
  by_cases hk : k' = k
  · subst hk
    simp [setHandler]
  · simp [setHandler, hk]

@[simp] theorem setClose_close_self (s : ServerRuntime) (k : Nat) (pc : ConnectionClose) :
    ((s.setClose k pc).client k).close = pc := by
  simp [setClose]

theorem setClose_close_of_ne (s : ServerRuntime) {k k' : Nat} (pc : ConnectionClose) (h : k' ≠ k) :
    ((s.setClose k pc).client k').close = (s.client k').close := by
  simp [setClose, h]

@[simp] theorem setClose_handler (s : ServerRuntime) (k k' : Nat) (pc : ConnectionClose) :
    ((s.setClose k pc).client k').handler = (s.client k').handler := by
  by_cases hk : k' = k
  · subst hk
    simp [setClose]
  · simp [setClose, hk]

theorem Inv.setHandler (h : Inv max s) {k : Nat} {pc : ClientHandler} (habsent : (s.client k).handler ≠ .absent)
    (hfresh : pc.fresh → k ∉ s.accepted) (hinit : pc.initialising → k ∈ s.accepted)
    (hpast : (s.client k).handler.past → pc.past) (hended : (s.client k).handler ≠ .ended) :
    Inv max (s.setHandler k pc) := by
  refine ⟨h.registry, fun k' hk' => ?_, fun k' => ?_, fun k' => ?_, fun k' hk' => ?_, fun id k' hk' => ?_, h.owned,
    fun k' => ?_, fun k' => ?_, fun j senders htook k' hk' => ?_, h.plannedConnections, h.entered, h.waiter⟩
  · by_cases hk : k' = k
    · subst hk
      exact absurd (h.absent k' hk') habsent
    · rw [setHandler_handler_of_ne s pc hk]
      exact h.absent k' hk'
  · by_cases hk : k' = k
    · subst hk
      rw [setHandler_handler_self]
      exact hfresh
    · rw [setHandler_handler_of_ne s pc hk]
      exact h.fresh k'
  · by_cases hk : k' = k
    · subst hk
      rw [setHandler_handler_self]
      exact hinit
    · rw [setHandler_handler_of_ne s pc hk]
      exact h.initialising k'
  · have hstarted := h.started k' hk'
    by_cases hk : k' = k
    · subst hk
      exact absurd hstarted.1 hended
    · rw [setHandler_handler_of_ne s pc hk]
      exact hstarted
  · have hold := h.registered id k' hk'
    by_cases hk : k' = k
    · subst hk
      rw [setHandler_handler_self]
      exact hpast hold
    · rw [setHandler_handler_of_ne s pc hk]
      exact hold
  · rw [setHandler_close]
    exact h.closing k'
  · rw [setHandler_close]
    exact h.closed k'
  · obtain ⟨hold, hleft⟩ := h.plannedSenders j senders htook k' hk'
    refine ⟨?_, hleft⟩
    by_cases hk : k' = k
    · subst hk
      rw [setHandler_handler_self]
      exact hpast hold
    · rw [setHandler_handler_of_ne s pc hk]
      exact hold

theorem Inv.setClose (h : Inv max s) {k : Nat} {pc : ConnectionClose} (hk : k ∈ s.accepted)
    (hclosed : pc = .closed → s.connectionId k ∉ s.connections) : Inv max (s.setClose k pc) := by
  refine ⟨h.registry, fun k' => ?_, fun k' => ?_, fun k' => ?_, fun k' => ?_, fun id k' => ?_, h.owned, fun k' => ?_,
    fun k' => ?_, fun j senders htook k' => ?_, h.plannedConnections, h.entered, h.waiter⟩
  · rw [setClose_handler]
    exact h.absent k'
  · rw [setClose_handler]
    exact h.fresh k'
  · rw [setClose_handler]
    exact h.initialising k'
  · rw [setClose_handler]
    exact h.started k'
  · rw [setClose_handler]
    exact h.registered id k'
  · by_cases hkk : k' = k
    · subst hkk
      exact fun _ => hk
    · rw [setClose_close_of_ne s pc hkk]
      exact h.closing k'
  · by_cases hkk : k' = k
    · subst hkk
      rw [setClose_close_self]
      exact hclosed
    · rw [setClose_close_of_ne s pc hkk]
      exact h.closed k'
  · rw [setClose_handler]
    exact h.plannedSenders j senders htook k'

theorem Inv.beginClose (h : Inv max s) {k : Nat} (hk : k ∈ s.accepted) : Inv max (s.beginClose k) := by
  unfold ServerRuntime.beginClose
  split_ifs
  · exact h.setClose hk fun heq => by cases heq
  · exact h

theorem beginClose_eq (s : ServerRuntime) (k : Nat) : s.beginClose k = { s with client := (s.beginClose k).client } := by
  unfold ServerRuntime.beginClose
  split_ifs
  · rfl
  · rfl

theorem foldl_beginClose (l : List Nat) (s : ServerRuntime) :
    l.foldl ServerRuntime.beginClose s = { s with client := (l.foldl ServerRuntime.beginClose s).client } := by
  induction l generalizing s with
  | nil => rfl
  | cons k l ih =>
    rw [List.foldl_cons, ih, beginClose_eq]

theorem Inv.beginCloses (h : Inv max s) {l : List Nat} (hl : ∀ k ∈ l, k ∈ s.accepted) :
    Inv max (l.foldl ServerRuntime.beginClose s) := by
  induction l generalizing s with
  | nil => exact h
  | cons k l ih =>
    refine ih (h.beginClose (hl k List.mem_cons_self)) fun k' hk' => ?_
    rw [beginClose_eq]
    exact hl k' (List.mem_cons_of_mem _ hk')

theorem Inv.reject (h : Inv max s) : Inv max { s with toServerRegistry := s.reject } :=
  ⟨h.registry.frame rfl rfl rfl rfl (Nat.le_succ _), h.absent, h.fresh, h.initialising, h.started, h.registered, h.owned,
    h.closing, h.closed, h.plannedSenders, h.plannedConnections, h.entered, h.waiter⟩

theorem Inv.accept (h : Inv max s) {k : Nat} (hk : (s.client k).handler = .accepting)
    (hroom : s.connections.entries.length < max) (p : PeerName) :
    Inv max ({ s with toServerRegistry := s.accept k p }.setHandler k .opening) := by
  have hnot : k ∉ s.accepted := h.fresh k (by rw [hk]; rfl)
  have hne : ∀ k', (s.client k').handler ≠ .accepting → k' ≠ k := by
    rintro k' hk' rfl
    exact hk' hk
  refine ⟨h.registry.accept hnot hroom p, fun k' hk' => ?_, fun k' hk' => ?_, fun k' hk' => ?_, fun k' hk' => ?_,
    fun id k' hk' => ?_, fun k' hk' => ?_, fun k' hk' => ?_, fun k' hk' => ?_, fun j senders htook k' hk' => ?_,
    fun j plan hplan k' hk' => ?_, h.entered, h.waiter⟩
  · have habsent := h.absent k' hk'
    rw [setHandler_handler_of_ne _ _ (hne k' (by rw [habsent]; decide))]
    exact habsent
  · by_cases hkk : k' = k
    · subst hkk
      rw [setHandler_handler_self] at hk'
      cases hk'
    · rw [setHandler_handler_of_ne _ _ hkk] at hk'
      change k' ∉ s.accepted ++ [k]
      rw [List.mem_append, List.mem_singleton, not_or]
      exact ⟨h.fresh k' hk', hkk⟩
  · change k' ∈ s.accepted ++ [k]
    by_cases hkk : k' = k
    · exact List.mem_append_right _ (List.mem_singleton.2 hkk)
    · rw [setHandler_handler_of_ne _ _ hkk] at hk'
      exact List.mem_append_left _ (h.initialising k' hk')
  · obtain ⟨hended, haccepted⟩ := h.started k' hk'
    rw [setHandler_handler_of_ne _ _ (hne k' (by rw [hended]; decide))]
    exact ⟨hended, List.mem_append_left _ haccepted⟩
  · have hpast := h.registered id k' hk'
    rw [setHandler_handler_of_ne _ _ (hne k' fun heq => by rw [heq] at hpast; cases hpast)]
    exact hpast
  · have hkk : k' ≠ k := by
      rintro rfl
      exact hnot (h.started k' (by rw [show s.sender k' = .running from hk']; decide)).2
    have hid : (s.accept k p).connectionId k' = s.connectionId k' := Function.update_of_ne hkk ..
    change s.heartbeatSenders.lookup ((s.accept k p).connectionId k') = some k' ∨ _
    rw [hid]
    exact h.owned k' hk'
  · rw [setHandler_close] at hk'
    exact List.mem_append_left _ (h.closing k' hk')
  · rw [setHandler_close] at hk'
    have haccepted := h.closing k' (by rw [show (s.client k').close = .closed from hk']; decide)
    have hid : (s.accept k p).connectionId k' = s.connectionId k' :=
      Function.update_of_ne (by rintro rfl; exact hnot haccepted) ..
    change (s.accept k p).connectionId k' ∉ s.connections.insert _ k
    rw [hid, AList.mem_insert, not_or]
    exact ⟨h.registry.fresh p haccepted, h.closed k' hk'⟩
  · obtain ⟨hpast, hleft⟩ := h.plannedSenders j senders htook k' hk'
    rw [setHandler_handler_of_ne _ _ (hne k' fun heq => by rw [heq] at hpast; cases hpast)]
    exact ⟨hpast, hleft⟩
  · exact List.mem_append_left _ (h.plannedConnections j plan hplan k' hk')

/-- The heartbeat sender of a client whose handler has got that far is registered. -/
theorem Inv.register (h : Inv max s) {k : Nat} (hpast : (s.client k).handler.past) (hacc : k ∈ s.accepted)
    (hmem : s.connectionId k ∈ s.connections) : Inv max { s with toServerRegistry := s.register k } := by
  refine ⟨h.registry.register hacc hmem, h.absent, h.fresh, h.initialising, h.started, fun id k' hk' => ?_,
    fun k' hk' => ?_, h.closing, h.closed, h.plannedSenders, h.plannedConnections, h.entered, h.waiter⟩
  · change (s.heartbeatSenders.insert _ k).lookup id = some k' at hk'
    by_cases heq : id = s.connectionId k
    · rw [heq, AList.lookup_insert] at hk'
      cases hk'
      exact hpast
    · rw [AList.lookup_insert_ne heq] at hk'
      exact h.registered id k' hk'
  · change (s.heartbeatSenders.insert (s.connectionId k) k).lookup (s.connectionId k') = some k' ∨ _
    by_cases hkk : k' = k
    · subst hkk
      exact .inl (AList.lookup_insert _)
    · have haccepted := (h.started k' (by rw [show s.sender k' = .running from hk']; decide)).2
      rw [AList.lookup_insert_ne fun heq => hkk (h.registry.eq_of_connectionId haccepted hacc heq)]
      exact h.owned k' hk'

/-- A registered sender that no stop has taken over is started. -/
theorem Inv.startSender (h : Inv max s) {k : Nat} (hended : (s.client k).handler = .ended) (hacc : k ∈ s.accepted)
    (hlookup : s.heartbeatSenders.lookup (s.connectionId k) = some k)
    (hnew : ∀ j senders, s.planned j = some (.took senders) → k ∉ senders) :
    Inv max { s with toServerRegistry := s.startSender k } := by
  have hother : ∀ k', k' ≠ k → (s.startSender k).sender k' = s.sender k' := fun k' hkk => Function.update_of_ne hkk ..
  refine ⟨h.registry.frame rfl rfl rfl rfl (Nat.le_refl _), h.absent, h.fresh, h.initialising, fun k' hk' => ?_,
    h.registered, fun k' hk' => ?_, h.closing, h.closed, fun j senders htook k' hk' => ?_, h.plannedConnections,
    h.entered, h.waiter⟩
  · by_cases hkk : k' = k
    · subst hkk
      exact ⟨hended, hacc⟩
    · exact h.started k' fun heq => hk' ((hother k' hkk).trans heq)
  · by_cases hkk : k' = k
    · subst hkk
      exact .inl hlookup
    · exact h.owned k' ((hother k' hkk).symm.trans hk')
  · have hkk : k' ≠ k := by
      rintro rfl
      exact hnew j senders htook hk'
    obtain ⟨hpast, hleft⟩ := h.plannedSenders j senders htook k' hk'
    exact ⟨hpast, hleft.imp_right fun hne heq => hne ((hother k' hkk).symm.trans heq)⟩

theorem Inv.registerSender (h : Inv max s) {k : Nat} (hk : (s.client k).handler = .registering) (ok : Bool) :
    Inv max (s.registerSender k ok) := by
  have hacc : k ∈ s.accepted := h.initialising k (by rw [hk]; rfl)
  have hmove : ∀ pc : ClientHandler, pc.past → Inv max (s.setHandler k pc) := by
    intro pc hpc
    refine h.setHandler ?_ (fun hf => ?_) (fun _ => hacc) (fun _ => hpc) ?_
    · rw [hk]
      decide
    · cases pc <;> first | cases hpc; done | cases hf
    · rw [hk]
      decide
  have hregister : ∀ pc : ClientHandler, pc.past → s.connectionId k ∈ s.connections →
      Inv max ({ s with toServerRegistry := s.register k }.setHandler k pc) := fun pc hpc hmem =>
    (hmove pc hpc).register (by rw [setHandler_handler_self]; exact hpc) hacc hmem
  unfold ServerRuntime.registerSender
  split_ifs with hmem hok
  · refine (hregister .ended rfl hmem.2).startSender (setHandler_handler_self ..) hacc (AList.lookup_insert _) ?_
    intro j senders htook hmemk
    have hpast := (h.plannedSenders j senders htook k hmemk).1
    rw [hk] at hpast
    cases hpast
  · exact hregister .unregistering rfl hmem.2
  · exact hmove .ended rfl

/-- A sender that could not be started is taken back. -/
theorem Inv.unregister (h : Inv max s) {k : Nat} (hacc : k ∈ s.accepted) (hidle : s.sender k ≠ .running) :
    Inv max { s with toServerRegistry := s.unregister k } := by
  refine ⟨h.registry.unregister k, h.absent, h.fresh, h.initialising, h.started, fun id k' hk' => ?_, fun k' hk' => ?_,
    h.closing, h.closed, h.plannedSenders, h.plannedConnections, h.entered, h.waiter⟩
  · change (s.heartbeatSenders.erase _).lookup id = some k' at hk'
    by_cases heq : id = s.connectionId k
    · rw [heq, AList.lookup_erase] at hk'
      cases hk'
    · rw [AList.lookup_erase_ne heq] at hk'
      exact h.registered id k' hk'
  · have hkk : k' ≠ k := by
      rintro rfl
      exact hidle hk'
    have haccepted := (h.started k' (by rw [show s.sender k' = .running from hk']; decide)).2
    change (s.heartbeatSenders.erase (s.connectionId k)).lookup (s.connectionId k') = some k' ∨ _
    rw [AList.lookup_erase_ne fun heq => hkk (h.registry.eq_of_connectionId haccepted hacc heq)]
    exact h.owned k' hk'

theorem sender_of_stopSender {r : ServerRegistry} {k k' : Nat} {pc : ServerHeartbeat} (hpc : pc ≠ .stopped)
    (h : (r.stopSender k).sender k' = pc) : r.sender k' = pc ∧ (pc = .running → k' ≠ k) := by
  unfold ServerRegistry.stopSender at h
  dsimp only at h
  split_ifs at h with hrunning
  · by_cases hkk : k' = k
    · rw [hkk, Function.update_self] at h
      exact absurd h.symm hpc
    · rw [Function.update_of_ne hkk] at h
      exact ⟨h, fun _ => hkk⟩
  · refine ⟨h, ?_⟩
    rintro rfl rfl
    exact hrunning h

theorem sender_ne_idle_of_stopSender {r : ServerRegistry} {k k' : Nat} (h : (r.stopSender k).sender k' ≠ .idle) :
    r.sender k' ≠ .idle := by
  intro hidle
  apply h
  unfold ServerRegistry.stopSender
  dsimp only
  split_ifs with hrunning
  · rw [Function.update_of_ne, hidle]
    rintro rfl
    cases hrunning.symm.trans hidle
  · exact hidle

/-- What `_on_connection_closed` does: the entries go, and a sender that was registered is stopped. -/
theorem detach_eq (r : ServerRegistry) (k : Nat) :
    (r.detach k).connections = r.connections.erase (r.connectionId k) ∧
      (r.detach k).heartbeatSenders = r.heartbeatSenders.erase (r.connectionId k) ∧
      (r.detach k).connectionId = r.connectionId ∧ (r.detach k).accepted = r.accepted ∧
      (∀ k', (r.detach k).sender k' ≠ .idle → r.sender k' ≠ .idle) ∧
      ∀ k', (r.detach k).sender k' = .running → r.sender k' = .running ∧
        (r.heartbeatSenders.lookup (r.connectionId k) = some k' → False) := by
  unfold ServerRegistry.detach
  dsimp only
  split
  · next k₁ hk₁ =>
    refine ⟨rfl, rfl, rfl, rfl, fun k' hk' => sender_ne_idle_of_stopSender hk', fun k' hk' => ?_⟩
    obtain ⟨hrunning, hne⟩ := sender_of_stopSender (by decide) hk'
    exact ⟨hrunning, fun hsome => hne rfl (Option.some.inj (hsome.symm.trans hk₁))⟩
  · next hnone =>
    refine ⟨rfl, rfl, rfl, rfl, fun k' hk' => hk', fun k' hk' => ⟨hk', fun hsome => ?_⟩⟩
    cases hsome.symm.trans hnone

theorem Inv.detach (h : Inv max s) {k : Nat} (hacc : k ∈ s.accepted) :
    Inv max ({ s with toServerRegistry := s.detach k }.setClose k .closed) := by
  obtain ⟨hconnections, hsenders, hid, haccepted, hidle, hrunning⟩ := detach_eq s.toServerRegistry k
  have hdetached : Inv max { s with toServerRegistry := s.detach k } := by
    refine ⟨h.registry.detach k, h.absent, fun k' hk' => ?_, fun k' hk' => ?_, fun k' hk' => ?_, fun id k' hk' => ?_,
      fun k' hk' => ?_, fun k' hk' => ?_, fun k' hk' => ?_, fun j senders htook k' hk' => ?_,
      fun j plan hplan k' hk' => ?_, h.entered, h.waiter⟩
    · change k' ∉ (s.detach k).accepted
      rw [haccepted]
      exact h.fresh k' hk'
    · change k' ∈ (s.detach k).accepted
      rw [haccepted]
      exact h.initialising k' hk'
    · obtain ⟨hended, hstarted⟩ := h.started k' (hidle k' hk')
      refine ⟨hended, ?_⟩
      change k' ∈ (s.detach k).accepted
      rw [haccepted]
      exact hstarted
    · change (s.detach k).heartbeatSenders.lookup id = some k' at hk'
      rw [hsenders] at hk'
      by_cases heq : id = s.connectionId k
      · rw [heq, AList.lookup_erase] at hk'
        cases hk'
      · rw [AList.lookup_erase_ne heq] at hk'
        exact h.registered id k' hk'
    · obtain ⟨hrun, hnot⟩ := hrunning k' hk'
      change (s.detach k).heartbeatSenders.lookup ((s.detach k).connectionId k') = some k' ∨ _
      rw [hsenders, hid]
      rcases h.owned k' hrun with hlookup | hleft
      · by_cases heq : s.connectionId k' = s.connectionId k
        · exact (hnot (heq ▸ hlookup)).elim
        · rw [AList.lookup_erase_ne heq]
          exact .inl hlookup
      · exact .inr hleft
    · change k' ∈ (s.detach k).accepted
      rw [haccepted]
      exact h.closing k' hk'
    · change (s.detach k).connectionId k' ∉ (s.detach k).connections
      rw [hid, hconnections, AList.mem_erase, not_and]
      exact fun _ => h.closed k' hk'
    · obtain ⟨hpast, hleft⟩ := h.plannedSenders j senders htook k' hk'
      exact ⟨hpast, hleft.imp_right fun hne heq => hne (hrunning k' heq).1⟩
    · change k' ∈ (s.detach k).accepted
      rw [haccepted]
      exact h.plannedConnections j plan hplan k' hk'
  refine hdetached.setClose ?_ fun _ => ?_
  · change k ∈ (s.detach k).accepted
    rw [haccepted]
    exact hacc
  · change (s.detach k).connectionId k ∉ (s.detach k).connections
    rw [hid, hconnections, AList.mem_erase]
    exact fun hmem => hmem.1 rfl

/-! ## `stop()` -/

/-- A stop goes on without touching the senders it has taken over. -/
theorem Inv.setStop (h : Inv max s) {j : Nat} {pc : ServerStop} (hplan : pc.plan = (s.stops j).plan ∨ pc.plan = none)
    (hleft : pc.left = (s.stops j).left) (hentered : pc.past → s.planned j ≠ none) : Inv max (s.setStop j pc) := by
  have hsame : ∀ j', ((s.setStop j pc).stops j').left = (s.stops j').left := by
    intro j'
    by_cases hj : j' = j
    · subst hj
      exact (congrArg ServerStop.left (Function.update_self ..)).trans hleft
    · exact congrArg ServerStop.left (Function.update_of_ne hj ..)
  have hplans : ∀ j' plan, ((s.setStop j pc).stops j').plan = some plan → (s.stops j').plan = some plan := by
    intro j' plan hp
    by_cases hj : j' = j
    · subst hj
      have hpc : pc.plan = some plan := (congrArg ServerStop.plan (Function.update_self ..)).symm.trans hp
      rcases hplan with hplan | hplan
      · exact hplan.symm.trans hpc
      · cases hplan.symm.trans hpc
    · exact (congrArg ServerStop.plan (Function.update_of_ne hj ..)).symm.trans hp
  refine ⟨h.registry, h.absent, h.fresh, h.initialising, h.started, h.registered, fun k hk => ?_, h.closing, h.closed,
    fun j' senders htook k hk => ?_, fun j' plan hp => h.plannedConnections j' plan (hplans j' plan hp),
    fun j' hpast => ?_, fun j' hj' => ?_⟩
  · refine (h.owned k hk).imp_right fun hex => ?_
    obtain ⟨j', hj'⟩ := hex
    exact ⟨j', (hsame j').symm ▸ hj'⟩
  · rw [hsame]
    exact h.plannedSenders j' senders htook k hk
  · simp only [ServerRuntime.setStop] at hpast
    by_cases hj : j' = j
    · subst hj
      rw [Function.update_self] at hpast
      exact hentered hpast
    · rw [Function.update_of_ne hj] at hpast
      exact h.entered j' hpast
  · rw [hsame] at hj'
    exact h.waiter j' hj'

theorem Inv.joins (h : Inv max s) (j owner : Nat) :
    Inv max { s with planned := Function.update s.planned j (some (.joined owner)) } := by
  refine ⟨h.registry, h.absent, h.fresh, h.initialising, h.started, h.registered, h.owned, h.closing, h.closed,
    fun j' senders htook k hk => ?_, h.plannedConnections, fun j' hpast => ?_, h.waiter⟩
  · dsimp only at htook
    by_cases hj : j' = j
    · rw [hj, Function.update_self] at htook
      cases htook
    · rw [Function.update_of_ne hj] at htook
      exact h.plannedSenders j' senders htook k hk
  · dsimp only
    by_cases hj : j' = j
    · rw [hj, Function.update_self]
      exact Option.some_ne_none _
    · rw [Function.update_of_ne hj]
      exact h.entered j' hpast

theorem mem_values {d : AList fun _ : String => Nat} {k : Nat} :
    k ∈ d.entries.map Sigma.snd ↔ ∃ id, d.lookup id = some k := by
  constructor
  · intro hk
    obtain ⟨⟨id, k'⟩, hmem, rfl⟩ := List.mem_map.1 hk
    exact ⟨id, AList.mem_lookup_iff.2 hmem⟩
  · rintro ⟨id, hk⟩
    exact List.mem_map.2 ⟨⟨id, k⟩, AList.mem_lookup_iff.1 hk, rfl⟩

/-- While no stop is in progress, every sender that runs is in the registry. -/
theorem Inv.running (h : Inv max s) (hwaiter : s.stopWaiter = none) {k : Nat} (hk : s.sender k = .running) :
    k ∈ s.heartbeatSenders.entries.map Sigma.snd := by
  rcases h.owned k hk with hlookup | ⟨j, hj⟩
  · exact mem_values.2 ⟨_, hlookup⟩
  · cases hwaiter.symm.trans (h.waiter j (List.ne_nil_of_mem hj))

/-- The section of `_plan_stop`: the registry is emptied, and the stop takes over the senders. -/
theorem Inv.planStop (h : Inv max s) {j : Nat} (hj : s.stops j = .planning) : Inv max (s.planStop j) := by
  unfold ServerRuntime.planStop
  split
  · next owner _ =>
    refine (h.joins j owner).setStop (.inr rfl) (by rw [hj]; rfl) fun _ => ?_
    dsimp only
    rw [Function.update_self]
    exact Option.some_ne_none _
  · next hnone =>
    have hleft : ∀ j', (s.stops j').left = [] := fun j' => by
      by_contra hne
      cases hnone.symm.trans (h.waiter j' hne)
    dsimp only
    refine ⟨h.registry.clear, h.absent, h.fresh, h.initialising, h.started, fun id k hk => ?_, fun k hk => ?_, h.closing,
      fun k _ => AList.notMem_empty _, fun j' senders htook k hk => ?_, fun j' plan hplan k hk => ?_,
      fun j' hpast => ?_, fun j' hj' => ?_⟩
    all_goals simp only [ServerRuntime.setStop] at *
    · cases (AList.lookup_empty id).symm.trans hk
    · refine .inr ⟨j, ?_⟩
      rw [Function.update_self]
      exact h.running hnone hk
    · by_cases hne : j' = j
      · subst hne
        rw [Function.update_self] at htook ⊢
        cases htook
        obtain ⟨id, hlookup⟩ := mem_values.1 hk
        exact ⟨h.registered id k hlookup, .inl hk⟩
      · rw [Function.update_of_ne hne] at htook ⊢
        exact h.plannedSenders j' senders htook k hk
    · by_cases hne : j' = j
      · subst hne
        rw [Function.update_self] at hplan
        cases hplan
        obtain ⟨id, hlookup⟩ := mem_values.1 hk
        exact (h.registry.own id k hlookup).2
      · rw [Function.update_of_ne hne] at hplan
        exact h.plannedConnections j' plan hplan k hk
    · by_cases hne : j' = j
      · rw [hne, Function.update_self]
        exact Option.some_ne_none _
      · rw [Function.update_of_ne hne] at hpast ⊢
        exact h.entered j' hpast
    · by_cases hne : j' = j
      · rw [hne]
      · rw [Function.update_of_ne hne] at hj'
        exact absurd (hleft j') hj'

theorem Inv.stopSender (h : Inv max s) {j k : Nat} {plan : TcpServerTeardown} {left : List Nat}
    (hj : s.stops j = .stoppingSenders plan left) :
    Inv max ({ s with toServerRegistry := s.stopSender k }.setStop j (.stoppingSenders plan (left.erase k))) := by
  -- a sender that a stop has yet to stop, and that is not this one
  have hkeeps : ∀ j' k', k' ∈ (s.stops j').left → k' ≠ k →
      k' ∈ (Function.update s.stops j (.stoppingSenders plan (left.erase k)) j').left := by
    intro j' k' hmem hne
    by_cases hjj : j' = j
    · subst hjj
      rw [hj] at hmem
      rw [Function.update_self]
      exact (List.mem_erase_of_ne hne).2 hmem
    · rwa [Function.update_of_ne hjj]
  refine ⟨h.registry.stopSender k, h.absent, h.fresh, h.initialising,
    fun k' hk' => h.started k' (sender_ne_idle_of_stopSender hk'), h.registered, fun k' hk' => ?_, h.closing, h.closed,
    fun j' senders htook k' hk' => ?_, fun j' plan' hplan => ?_, fun j' hpast => ?_, fun j' hj' => ?_⟩
  · obtain ⟨hrunning, hne⟩ := sender_of_stopSender (by decide) hk'
    exact (h.owned k' hrunning).imp_right fun ⟨j', hj'⟩ => ⟨j', hkeeps j' k' hj' (hne rfl)⟩
  · obtain ⟨hpast, hleft⟩ := h.plannedSenders j' senders htook k' hk'
    refine ⟨hpast, ?_⟩
    by_cases hrunning : (s.stopSender k).sender k' = .running
    · obtain ⟨hrun, hne⟩ := sender_of_stopSender (by decide) hrunning
      exact .inl (hkeeps j' k' (hleft.resolve_right fun hnot => hnot hrun) (hne rfl))
    · exact .inr hrunning
  · refine h.plannedConnections j' plan' ?_
    simp only [ServerRuntime.setStop] at hplan
    by_cases hjj : j' = j
    · subst hjj
      rw [Function.update_self] at hplan
      rw [hj]
      exact hplan
    · rw [Function.update_of_ne hjj] at hplan
      exact hplan
  · simp only [ServerRuntime.setStop] at hpast
    refine h.entered j' ?_
    by_cases hjj : j' = j
    · rw [hjj, hj]
      rfl
    · rwa [Function.update_of_ne hjj] at hpast
  · simp only [ServerRuntime.setStop] at hj'
    refine h.waiter j' ?_
    by_cases hjj : j' = j
    · subst hjj
      rw [Function.update_self] at hj'
      rw [hj]
      rintro hnil
      exact hj' (by rw [show left = [] from hnil]; rfl)
    · rwa [Function.update_of_ne hjj] at hj'

theorem Inv.stopTurn (h : Inv max s) {j : Nat} (hstep : s.stopTurn j = some s') : Inv max s' := by
  unfold ServerRuntime.stopTurn at hstep
  have hpast := h.entered j
  split at hstep
  · next hj =>
    split_ifs at hstep
    cases hstep
    exact h.planStop hj
  · next hj =>
    split_ifs at hstep
    cases hstep
    exact h.setStop (.inr rfl) (by rw [hj]; rfl) fun _ => hpast (by rw [hj]; rfl)
  · next plan hj =>
    cases hstep
    rw [foldl_closeListener]
    have hclosed : Inv max { s with listening := (plan.server.toList.foldl closeListener s).listening } :=
      h.unchanged (SameClients.unchanged ⟨rfl, rfl, rfl, rfl, rfl, rfl⟩)
    exact hclosed.setStop (.inl (by rw [hj]; rfl)) (by rw [hj]; rfl) fun _ => hpast (by rw [hj]; rfl)
  · next plan hj =>
    cases hstep
    have hplan : (s.stops j).plan = some plan := by rw [hj]; rfl
    have hstops : (plan.connections.foldl ServerRuntime.beginClose s).stops = s.stops := by rw [foldl_beginClose]
    have hplanned : (plan.connections.foldl ServerRuntime.beginClose s).planned = s.planned := by rw [foldl_beginClose]
    exact (h.beginCloses (h.plannedConnections j plan hplan)).setStop (.inl (by rw [hstops, hj]; rfl))
      (by rw [hstops, hj]; rfl) fun _ => hplanned ▸ hpast (by rw [hj]; rfl)
  · next plan hj =>
    split_ifs at hstep
    cases hstep
    exact h.setStop (.inl (by rw [hj]; rfl)) (by rw [hj]; rfl) fun _ => hpast (by rw [hj]; rfl)
  · next plan hj =>
    split_ifs at hstep <;> cases hstep
    · exact h.setStop (.inr rfl) (by rw [hj]; rfl) fun _ => hpast (by rw [hj]; rfl)
    · exact h.setStop (.inr rfl) (by rw [hj]; rfl) fun _ => hpast (by rw [hj]; rfl)
  · next hj =>
    split_ifs at hstep
    cases hstep
    have hsettled : Inv max { s with lifecycle := (applyStoppedTransitionIfStopping s.lifecycle).1 } :=
      h.unchanged (SameClients.unchanged ⟨rfl, rfl, rfl, rfl, rfl, rfl⟩)
    exact hsettled.setStop (.inr rfl) (by rw [hj]; rfl) fun _ => hpast (by rw [hj]; rfl)
  · next hj =>
    cases hstep
    exact h.setStop (.inr rfl) (by rw [hj]; rfl) fun _ => hpast (by rw [hj]; rfl)
  · next hj =>
    split at hstep
    · cases hstep
      have hcleared : Inv max { s with stopWaiter := if s.stopWaiter = some j then none else s.stopWaiter } := by
        refine ⟨h.registry, h.absent, h.fresh, h.initialising, h.started, h.registered, h.owned, h.closing, h.closed,
          h.plannedSenders, h.plannedConnections, h.entered, fun j' hj' => ?_⟩
        have hother : j' ≠ j := by
          rintro rfl
          rw [hj] at hj'
          exact hj' rfl
        have hwaiter := h.waiter j' hj'
        rw [if_neg (by rw [hwaiter]; exact fun heq => hother (Option.some.inj heq))]
        exact hwaiter
      exact hcleared.setStop (.inr rfl) (by rw [hj]; rfl) fun _ => hpast (by rw [hj]; rfl)
    · cases hstep
  · cases hstep
  · cases hstep
  · cases hstep

theorem Inv.handlerTurn {k : Nat} {ok : Bool} (h : Inv settings.maxConnections s)
    (hstep : s.handlerTurn settings k ok = some s') : Inv settings.maxConnections s' := by
  unfold ServerRuntime.handlerTurn at hstep
  split at hstep
  · next hk =>
    cases hstep
    refine h.setHandler ?_ (fun _ => h.fresh k (by rw [hk]; rfl)) (fun hf => by cases hf) (fun hf => ?_) ?_
    · rw [hk]; decide
    · rw [hk] at hf; cases hf
    · rw [hk]; decide
  · next hk =>
    split_ifs at hstep
    cases hstep
    have hreject : Inv settings.maxConnections ({ s with toServerRegistry := s.reject }.setHandler k .rejecting) := by
      refine h.reject.setHandler ?_ (fun _ => h.fresh k (by rw [hk]; rfl)) (fun hf => by cases hf) (fun hf => ?_) ?_
      · exact fun heq => by cases hk.symm.trans heq
      · cases (congrArg ClientHandler.past hk).symm.trans hf
      · exact fun heq => by cases hk.symm.trans heq
    unfold acceptOrReject
    split_ifs with hrunning hfull
    · exact hreject
    · exact hreject
    · exact h.accept hk (Nat.lt_of_not_le hfull) _
  · next hk =>
    cases hstep
    have hsame : (s.closeTransport k |>.client k).handler = .rejecting :=
      ((closeTransport_unchanged s k).handler k).trans hk
    refine (h.unchanged (closeTransport_unchanged s k)).setHandler ?_ (fun hf => by cases hf) (fun hf => by cases hf)
      (fun _ => rfl) ?_
    · rw [hsame]; decide
    · rw [hsame]; decide
  · next hk =>
    cases hstep
    have hacc : k ∈ s.accepted := h.initialising k (by rw [hk]; rfl)
    refine h.setHandler ?_ (fun hf => ?_) (fun _ => hacc) (fun hf => ?_) ?_
    · rw [hk]; decide
    · split_ifs at hf <;> cases hf
    · rw [hk] at hf; cases hf
    · rw [hk]; decide
  · next hk =>
    split_ifs at hstep
    cases hstep
    exact h.registerSender hk ok
  · next hk =>
    split_ifs at hstep
    cases hstep
    have hacc : k ∈ s.accepted := h.initialising k (by rw [hk]; rfl)
    have hidle : s.sender k ≠ .running := by
      intro heq
      cases hk.symm.trans (h.started k (by rw [heq]; decide)).1
    refine (h.unregister hacc hidle).setHandler ?_ (fun hf => by cases hf) (fun _ => hacc) (fun _ => rfl) ?_
    · exact fun heq => by cases hk.symm.trans heq
    · exact fun heq => by cases hk.symm.trans heq
  · next hk =>
    cases hstep
    have hacc : k ∈ s.accepted := h.initialising k (by rw [hk]; rfl)
    have hsame : (s.beginClose k |>.client k).handler = .failing := by
      unfold ServerRuntime.beginClose
      split_ifs
      · rw [setClose_handler]
        exact hk
      · exact hk
    refine (h.beginClose hacc).setHandler ?_ (fun hf => by cases hf) (fun hf => by cases hf) (fun _ => rfl) ?_
    · rw [hsame]; decide
    · rw [hsame]; decide
  · cases hstep
  · cases hstep

theorem Inv.closeTurn {k : Nat} {ok : Bool} (h : Inv max s) (hstep : s.closeTurn k ok = some s') : Inv max s' := by
  unfold ServerRuntime.closeTurn at hstep
  split at hstep
  · next hk =>
    have hacc : k ∈ s.accepted := h.closing k (by rw [hk]; decide)
    split_ifs at hstep <;> cases hstep
    · exact (h.unchanged (closeTransport_unchanged s k)).setClose hacc fun heq => by cases heq
    · exact h.setClose hacc fun heq => by cases heq
  · next hk =>
    split_ifs at hstep
    cases hstep
    exact h.detach (h.closing k (by rw [hk]; decide))
  · cases hstep
  · cases hstep
  · cases hstep

theorem Inv.connect (h : Inv max s) (i : Nat) (peerInfo : PeerName) :
    Inv max { s with
      client := Function.update s.client s.clientCount
        { server := i, peerInfo, transportOpen := true, handler := .scheduled }
      clientCount := s.clientCount + 1 } := by
  have habsent := h.absent s.clientCount (Nat.le_refl _)
  have hnot : s.clientCount ∉ s.accepted := h.fresh _ (by rw [habsent]; rfl)
  have hpast : ∀ k, (s.client k).handler.past → k ≠ s.clientCount := by
    rintro k hk rfl
    rw [habsent] at hk
    cases hk
  refine ⟨h.registry, fun k hk => ?_, fun k hk => ?_, fun k hk => ?_, fun k hk => ?_, fun id k hk => ?_, h.owned,
    fun k hk => ?_, fun k hk => ?_, fun j senders htook k hk => ?_, h.plannedConnections,
    h.entered, h.waiter⟩
  all_goals dsimp only at hk ⊢
  · rw [Function.update_of_ne (Nat.ne_of_gt hk)]
    exact h.absent k (Nat.le_of_succ_le hk)
  · by_cases hkk : k = s.clientCount
    · exact hkk ▸ hnot
    · rw [Function.update_of_ne hkk] at hk
      exact h.fresh k hk
  · by_cases hkk : k = s.clientCount
    · rw [hkk, Function.update_self] at hk
      cases hk
    · rw [Function.update_of_ne hkk] at hk
      exact h.initialising k hk
  · have hstarted := h.started k hk
    rw [Function.update_of_ne (hpast k (by rw [hstarted.1]; rfl))]
    exact hstarted
  · have hold := h.registered id k hk
    rw [Function.update_of_ne (hpast k hold)]
    exact hold
  · by_cases hkk : k = s.clientCount
    · rw [hkk, Function.update_self] at hk
      exact absurd rfl hk
    · rw [Function.update_of_ne hkk] at hk
      exact h.closing k hk
  · by_cases hkk : k = s.clientCount
    · rw [hkk, Function.update_self] at hk
      cases hk
    · rw [Function.update_of_ne hkk] at hk
      exact h.closed k hk
  · obtain ⟨hold, hleft⟩ := h.plannedSenders j senders htook k hk
    rw [Function.update_of_ne (hpast k hold)]
    exact ⟨hold, hleft⟩

theorem Inv.step {a : ServerAct} (h : Inv settings.maxConnections s) (hstep : s.step settings a = some s') :
    Inv settings.maxConnections s' := by
  cases a with
  | start i =>
    simp only [ServerRuntime.step] at hstep
    split_ifs at hstep
    cases hstep
    exact h.unchanged (SameClients.unchanged ⟨rfl, rfl, rfl, rfl, rfl, rfl⟩)
  | startTurn i ok => exact h.unchanged (startTurn_sameClients hstep).unchanged
  | stop j =>
    simp only [ServerRuntime.step] at hstep
    split_ifs at hstep with hj
    cases hstep
    exact h.setStop (.inr rfl) (by rw [hj]; rfl) fun hpast => by cases hpast
  | stopTurn j => exact h.stopTurn hstep
  | stopSender j k =>
    simp only [ServerRuntime.step] at hstep
    split at hstep
    · next plan left hj =>
      split_ifs at hstep
      cases hstep
      exact h.stopSender hj
    · cases hstep
  | connect i peerInfo =>
    simp only [ServerRuntime.step] at hstep
    split_ifs at hstep
    cases hstep
    exact h.connect i peerInfo
  | lose k =>
    cases hstep
    exact h.unchanged (closeTransport_unchanged s k)
  | handlerTurn k ok => exact h.handlerTurn hstep
  | close k =>
    simp only [ServerRuntime.step] at hstep
    split_ifs at hstep with hk
    cases hstep
    exact h.beginClose hk
  | closeTurn k ok => exact h.closeTurn hstep

/-! ## What is added to the registry -/

/-- Every entry was there before. -/
def KeepsConnections (s s' : ServerRuntime) : Prop :=
  ∀ id k, s'.connections.lookup id = some k → s.connections.lookup id = some k

theorem KeepsConnections.of_eq (h : s'.connections = s.connections) : KeepsConnections s s' := by
  intro id k hk
  rwa [h] at hk

theorem stopTurn_connections {j : Nat} (hstep : s.stopTurn j = some s') : KeepsConnections s s' := by
  unfold ServerRuntime.stopTurn at hstep
  split at hstep
  · split_ifs at hstep
    cases hstep
    unfold ServerRuntime.planStop
    split
    · exact .of_eq rfl
    · intro id k hk
      cases (AList.lookup_empty id).symm.trans hk
  · split_ifs at hstep
    cases hstep
    exact .of_eq rfl
  · cases hstep
    rw [foldl_closeListener]
    exact .of_eq rfl
  · cases hstep
    rw [foldl_beginClose]
    exact .of_eq rfl
  · split_ifs at hstep
    cases hstep
    exact .of_eq rfl
  · split at hstep
    · cases hstep
      exact .of_eq rfl
    · cases hstep
  · split_ifs at hstep
    cases hstep
    exact .of_eq rfl
  · cases hstep
    exact .of_eq rfl
  · split at hstep
    · cases hstep
      exact .of_eq rfl
    · cases hstep
  · cases hstep
  · cases hstep
  · cases hstep

/-- A turn of a handler adds an entry only in the section that accepts a client. -/
theorem handlerTurn_connections {k : Nat} {ok : Bool} (hstep : s.handlerTurn settings k ok = some s') :
    KeepsConnections s s' ∨ s.lifecycle = .running ∧ s'.connections =
      s.connections.insert (tcpServerConnectionId (s.client k).peerInfo (s.connectionSequence + 1)) k := by
  unfold ServerRuntime.handlerTurn at hstep
  split at hstep
  · cases hstep
    exact .inl (.of_eq rfl)
  · split_ifs at hstep
    cases hstep
    unfold acceptOrReject
    split_ifs with hrunning
    · exact .inl (.of_eq rfl)
    · exact .inl (.of_eq rfl)
    · exact .inr ⟨not_not.1 hrunning, rfl⟩
  · cases hstep
    exact .inl (.of_eq rfl)
  · cases hstep
    exact .inl (.of_eq rfl)
  · split_ifs at hstep
    cases hstep
    unfold ServerRuntime.registerSender
    split_ifs
    · exact .inl (.of_eq rfl)
    · exact .inl (.of_eq rfl)
    · exact .inl (.of_eq rfl)
  · split_ifs at hstep
    cases hstep
    exact .inl (.of_eq rfl)
  · cases hstep
    rw [beginClose_eq]
    exact .inl (.of_eq rfl)
  · cases hstep
  · cases hstep

theorem closeTurn_connections {k : Nat} {ok : Bool} (hstep : s.closeTurn k ok = some s') : KeepsConnections s s' := by
  unfold ServerRuntime.closeTurn at hstep
  split at hstep
  · split_ifs at hstep <;> cases hstep
    · exact .of_eq rfl
    · exact .of_eq rfl
  · split_ifs at hstep
    cases hstep
    intro id k' hk'
    change (s.detach k).connections.lookup id = some k' at hk'
    rw [(detach_eq s.toServerRegistry k).1] at hk'
    by_cases heq : id = s.connectionId k
    · rw [heq, AList.lookup_erase] at hk'
      cases hk'
    · rwa [AList.lookup_erase_ne heq] at hk'
  · cases hstep
  · cases hstep
  · cases hstep

/-- One step adds at most one entry, under an identifier that is not in the registry, while the server is `RUNNING`. -/
theorem Inv.added {a : ServerAct} (h : Inv max s) (hstep : s.step settings a = some s') {id : String} {k : Nat}
    (hk : s'.connections.lookup id = some k) :
    s.connections.lookup id = some k ∨ id ∉ s.connections ∧ s.lifecycle = .running := by
  cases a with
  | start i =>
    simp only [ServerRuntime.step] at hstep
    split_ifs at hstep
    cases hstep
    exact .inl hk
  | startTurn i ok =>
    rw [congrArg ServerRegistry.connections (startTurn_sameClients hstep).registry] at hk
    exact .inl hk
  | stop j =>
    simp only [ServerRuntime.step] at hstep
    split_ifs at hstep
    cases hstep
    exact .inl hk
  | stopTurn j => exact .inl (stopTurn_connections hstep id k hk)
  | stopSender j k' =>
    simp only [ServerRuntime.step] at hstep
    split at hstep
    · split_ifs at hstep
      cases hstep
      exact .inl hk
    · cases hstep
  | connect i peerInfo =>
    simp only [ServerRuntime.step] at hstep
    split_ifs at hstep
    cases hstep
    exact .inl hk
  | lose k' =>
    cases hstep
    exact .inl hk
  | handlerTurn k' ok =>
    rcases handlerTurn_connections hstep with hkeeps | ⟨hrunning, hinsert⟩
    · exact .inl (hkeeps id k hk)
    · rw [hinsert] at hk
      by_cases heq : id = tcpServerConnectionId (s.client k').peerInfo (s.connectionSequence + 1)
      · exact .inr ⟨heq ▸ h.registry.fresh_not_mem _, hrunning⟩
      · rw [AList.lookup_insert_ne heq] at hk
        exact .inl hk
  | close k' =>
    simp only [ServerRuntime.step] at hstep
    split_ifs at hstep
    cases hstep
    rw [beginClose_eq] at hk
    exact .inl hk
  | closeTurn k' ok => exact .inl (closeTurn_connections hstep id k hk)

/-! ## Every state of a run -/

/-- A call of `stop()` that finds no other in progress takes over every sender that runs, and it leaves none of them running;
any other call waits for it. -/
structure StopsSenders (settings : TcpServerSettings) (s : ServerRuntime) : Prop where
  entered : ∀ j, (s.stops j).past → s.planned j ≠ none
  takes : ∀ j s', s.stops j = .planning → s.stopWaiter = none → s.step settings (.stopTurn j) = some s' →
    ∃ senders, s'.planned j = some (.took senders) ∧ ∀ k, s.sender k = .running → k ∈ senders
  joins : ∀ j owner s', s.stops j = .planning → s.stopWaiter = some owner → s.step settings (.stopTurn j) = some s' →
    s'.stops j = .joining owner
  taken : ∀ j senders, s.planned j = some (.took senders) → ∀ k ∈ senders,
    k ∈ (s.stops j).left ∨ s.sender k ≠ .running
  stops : ∀ j plan left s', s.stops j = .stoppingSenders plan left → s.step settings (.stopTurn j) = some s' →
    ∀ senders, s.planned j = some (.took senders) → ∀ k ∈ senders, s'.sender k ≠ .running
  ended : ∀ j senders, s.planned j = some (.took senders) → s.stops j = .ended → ∀ k ∈ senders, s.sender k ≠ .running
  joined : ∀ j owner s', s.stops j = .joining owner → s.step settings (.stopTurn j) = some s' →
    ∀ senders, s.planned owner = some (.took senders) → ∀ k ∈ senders, s.sender k ≠ .running

/-- The registry holds at most `max_connections` clients, each under its own identifier, and no identifier is given out
twice; an entry is added only while the server is `RUNNING`, and never in the place of another. A sender in the registry is
that of a connection in the registry, and a sender that runs is there, or a stop is about to stop it: it has been stopped
once the callback of its connection has run, and once a stop that found it running has ended. -/
structure Registered (settings : TcpServerSettings) (s : ServerRuntime) : Prop where
  capacity : s.connections.entries.length ≤ settings.maxConnections
  own : ∀ id k, s.connections.lookup id = some k → s.connectionId k = id
  distinct : (s.accepted.map s.connectionId).Nodup
  added : ∀ a s', s.step settings a = some s' → ∀ id k, s'.connections.lookup id = some k →
    s.connections.lookup id = some k ∨ id ∉ s.connections ∧ s.lifecycle = .running
  senders : ∀ id ∈ s.heartbeatSenders, id ∈ s.connections
  stoppable : ∀ k, s.sender k = .running →
    s.heartbeatSenders.lookup (s.connectionId k) = some k ∨ ∃ j, k ∈ (s.stops j).left
  closed : ∀ k, (s.client k).close = .closed → s.sender k = .running → ∃ j, k ∈ (s.stops j).left
  stops : s.StopsSenders settings

theorem planned_planStop {j : Nat} (hwaiter : s.stopWaiter = none) :
    (s.planStop j).planned j = some (.took (s.heartbeatSenders.entries.map Sigma.snd)) := by
  unfold ServerRuntime.planStop
  rw [hwaiter]
  exact Function.update_self ..

theorem Inv.stopsSenders (h : Inv settings.maxConnections s) : s.StopsSenders settings := by
  have htaken : ∀ j senders, s.planned j = some (.took senders) → (s.stops j).left = [] → ∀ k ∈ senders,
      s.sender k ≠ .running := by
    intro j senders htook hleft k hk
    refine (h.plannedSenders j senders htook k hk).2.resolve_left ?_
    rw [hleft]
    exact List.not_mem_nil
  refine ⟨h.entered, fun j s' hj hwaiter hstep => ?_, fun j owner s' hj hwaiter hstep => ?_,
    fun j senders htook k hk => (h.plannedSenders j senders htook k hk).2, fun j plan left s' hj hstep senders htook => ?_,
    fun j senders htook hj => htaken j senders htook (by rw [hj]; rfl), fun j owner s' hj hstep senders htook => ?_⟩
  all_goals
    unfold ServerRuntime.step ServerRuntime.stopTurn at hstep
    simp only [hj] at hstep
  · split_ifs at hstep
    cases hstep
    exact ⟨_, planned_planStop hwaiter, fun k hk => h.running hwaiter hk⟩
  · split_ifs at hstep
    cases hstep
    unfold ServerRuntime.planStop
    rw [hwaiter]
    exact Function.update_self ..
  · cases left with
    | nil =>
      cases hstep
      rw [foldl_beginClose]
      exact htaken j senders htook (by rw [hj]; rfl)
    | cons k left => cases hstep
  · split_ifs at hstep with howner
    refine htaken owner senders htook ?_
    rcases howner with howner | howner
    · rw [howner]
      rfl
    · rw [howner]
      rfl

theorem inv_of_reachable {ok : ServerRuntime → ServerAct → Prop} (h : (serverMachine settings).Reachable ok s) :
    Inv settings.maxConnections s := by
  refine h.invariant (I := fun s => Inv settings.maxConnections s) ?_ fun s a t hi _ hstep => hi.step hstep
  rintro _ rfl
  refine ⟨⟨Nat.zero_le _, fun id k hk => ?_, fun k hk => ?_, List.nodup_nil, fun id k hk => ?_⟩, fun _ _ => rfl,
    fun k _ => List.not_mem_nil, fun k hk => ?_, fun k hk => ?_, fun id k hk => ?_, fun k hk => ?_, fun k hk => ?_,
    fun k hk => ?_, fun j senders htook => ?_, fun j plan hplan => ?_, fun j hpast => ?_, fun j hleft => ?_⟩
  · cases (AList.lookup_empty id).symm.trans hk
  · cases hk
  · cases (AList.lookup_empty id).symm.trans hk
  · cases hk
  · exact absurd rfl hk
  · cases (AList.lookup_empty id).symm.trans hk
  · cases hk
  · exact absurd rfl hk
  · cases hk
  · cases htook
  · cases hplan
  · cases hpast
  · exact absurd rfl hleft

end ServerRuntime

def oneClient : TcpServerSettings := { maxConnections := 1, heartbeatEnabled := true }

/-- A client is accepted, its heartbeat sender starts, a second client is rejected, and the first one is closed; another
client is accepted, its sender starts, and `stop()` runs to its end while a second call waits for it. -/
def acceptedClosedAndStopped : List ServerAct :=
  [.start 0, .startTurn 0 true, .startTurn 0 true, .startTurn 0 true, .startTurn 0 true, .startTurn 0 true,
    .startTurn 0 true, .startTurn 0 true, .connect 0 (some ("::1", "5000")), .handlerTurn 0 true, .handlerTurn 0 true,
    .handlerTurn 0 true, .handlerTurn 0 true, .connect 0 none, .handlerTurn 1 true, .handlerTurn 1 true, .close 0,
    .closeTurn 0 true, .closeTurn 0 true, .connect 0 none, .handlerTurn 2 true, .handlerTurn 2 true, .handlerTurn 2 true,
    .handlerTurn 2 true, .lose 1, .stop 0, .stop 1, .stopTurn 0, .stopTurn 1, .stopTurn 0, .stopSender 0 2, .stopTurn 0,
    .closeTurn 2 true, .closeTurn 2 true, .stopTurn 0, .stopTurn 0, .stopTurn 0, .stopTurn 0, .stopTurn 1, .stopTurn 0]

end Aionetx
