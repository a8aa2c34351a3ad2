import Cimple.EventLoop
import Cimple.Lib.FdTable
import Cimple.Lib.Runs

/-!
# The TCP server (`tcp_server.c`)

Each accepted connection gets a client: a structure in the server's queue, a thread, and an
`eventfd` descriptor in the event loop whose handler destroys the client once the thread is
done.  The identity of a client is its allocation, so a handler whose client has been freed
refers to no client of the queue, and calling it is undefined (`none`).

* `clientCreate`, `clientDestroy`, `tcpServerAccept`, `tcpServerDestroy` — the source.
* `State`, `Action`, `run` — rounds of the event loop and client threads that finish.
* `Bookkeeping` — what the queue, the event loop and the descriptors have to agree on.

Principal results: `client_bookkeeping` (the agreement holds in every run in which
`client_create_thread` does not fail) and `client_bookkeeping_broken` (one run in which it
does).
-/

set_option autoImplicit false

namespace Cimple.Tcp

open Events Descriptors

/-! ## State -/

/-- The handlers in the event loop, each with its argument. -/
inductive Handler where
  /-- `client_destroy_handler` of a client. -/
  | clientDestroy (client : Nat)
  /-- `tcp_server_accept_handler`. -/
  | accept
  /-- A handler of another component. -/
  | other (id : Nat)
  deriving DecidableEq

/-- `struct client`: its two descriptors, the files behind them, and whether its thread has
written to `cleanup_fd`. -/
structure Client where
  addr : Nat
  connFd : Nat
  connFile : Nat
  cleanupFd : Nat
  cleanupFile : Nat
  threadDone : Bool

/-- `struct tcp_server`, with the descriptor table, the files of the connections accepted so
far and the clients destroyed so far. -/
structure TcpServer where
  clientQueue : List Client
  acceptFd : Nat
  fds : FdTable
  fresh : Nat
  accepted : List Nat
  destroyed : List Nat

/-! ## Clients -/

/-- `client_destroy`; the join waits for the thread to be done. -/
def clientDestroy (addr : Nat) (server : TcpServer) : Option TcpServer :=
  match server.clientQueue.find? fun client => client.addr = addr with
  | none => none
  | some client => do
    let clientQueue ← TailQueue.remove Client.addr addr server.clientQueue
    some { server with
      clientQueue
      fds := close (close server.fds client.cleanupFd) client.connFd
      destroyed := addr :: server.destroyed }

/-- The outcomes of the steps of `client_create`, in their order. -/
structure ClientSteps where
  allocOk : Bool
  eventfd : Option Nat
  entryOk : Bool
  threadOk : Bool

/-- `client_create`. -/
def clientCreate (steps : ClientSteps) (connFd connFile : Nat) (loop : EventLoop Handler)
    (server : TcpServer) : Option (Int32 × EventLoop Handler × TcpServer) :=
  if !steps.allocOk then some (-1, loop, server)
  else
    let addr := server.fresh
    let server := { server with fresh := addr + 1 }
    match steps.eventfd.bind fun fd => (openFd server.fds fd).map fun fds => (fd, fds) with
    | none => some (-1, loop, server)
    | some (cleanupFd, fds) =>
      let client := ⟨addr, connFd, connFile, cleanupFd, server.fds.next, false⟩
      let server := { server with fds }
      match eventLoopAddOnce steps.entryOk loop cleanupFd pollIn (.clientDestroy addr) with
      | none => some (-1, loop, { server with fds := close server.fds cleanupFd })
      | some loop =>
        let server := { server with clientQueue := server.clientQueue ++ [client] }
        if steps.threadOk then some (0, loop, server)
        else do
          -- the entry of the event loop stays behind
          let clientQueue ← TailQueue.remove Client.addr addr server.clientQueue
          some (-1, loop, { server with clientQueue, fds := close server.fds cleanupFd })

/-- The outcomes of `tcp_server_accept`: the descriptor `accept4` has returned, if any, and
the steps of `client_create`. -/
structure AcceptSteps where
  conn : Option Nat
  create : ClientSteps

/-- `tcp_server_accept`. -/
def tcpServerAccept (steps : AcceptSteps) (loop : EventLoop Handler) (server : TcpServer) :
    Option (Int32 × EventLoop Handler × TcpServer) :=
  match steps.conn.bind fun fd => (openFd server.fds fd).map fun fds => (fd, fds) with
  | none => some (-1, loop, server)
  | some (connFd, fds) => do
    let connFile := server.fds.next
    let server := { server with fds, accepted := connFile :: server.accepted }
    let (ret, loop, server) ← clientCreate steps.create connFd connFile loop server
    if ret < 0 then some (ret, loop, { server with fds := close server.fds connFd })
    else some (ret, loop, server)

/-! ## The server -/

/-- `tcp_server_create`, on a socket `net_bind` has returned. -/
def tcpServerCreate (allocOk : Bool) (loop : EventLoop Handler) (fds : FdTable)
    (acceptFd : Nat) : Option (EventLoop Handler × TcpServer) := do
  let fds ← openFd fds acceptFd
  let loop ← eventLoopAdd allocOk loop acceptFd pollIn .accept
  some (loop, ⟨[], acceptFd, fds, 0, [], []⟩)

/-- `client_queue_destroy`: each client's successor is taken before the client is destroyed,
so the walk is along the queue as it was. -/
def clientQueueDestroy : List Client → TcpServer → Option TcpServer
  | [], server => some server
  | client :: clients, server => do
    let server ← clientDestroy client.addr server
    clientQueueDestroy clients server

/-- `tcp_server_destroy`. -/
def tcpServerDestroy (server : TcpServer) : Option TcpServer :=
  let server := { server with fds := close server.fds server.acceptFd }
  clientQueueDestroy server.clientQueue server

/-! ## Runs -/

/-- The event loop and the server. -/
structure State where
  loop : EventLoop Handler
  server : TcpServer

/-- What can happen: a client thread writes to its `cleanup_fd`, or the event loop makes a
round, with any result of `poll`, of an accept and of the handlers of other components. -/
inductive Action where
  | threadDone (client : Nat)
  | round (revents : Option (Nat → Int16)) (accept : AcceptSteps) (other : Nat → Int32)

/-- The handlers, as the event loop calls them. -/
def handlers (accept : AcceptSteps) (other : Nat → Int32) : Call Handler TcpServer :=
  fun handler _ _ loop server =>
    match handler with
    | .clientDestroy client => (clientDestroy client server).map fun server => (0, loop, server)
    | .accept => tcpServerAccept accept loop server
    | .other id => some (other id, loop, server)

/-- The client with its thread done. -/
def Client.done (addr : Nat) (client : Client) : Client :=
  if client.addr = addr then { client with threadDone := true } else client

def step (s : State) : Action → Option State
  | .threadDone addr => some { s with
      server := { s.server with clientQueue := s.server.clientQueue.map (Client.done addr) } }
  | .round revents accept other =>
    (eventLoopRun (handlers accept other) revents s.loop s.server).map fun r => ⟨r.2.1, r.2.2⟩

def run (s : State) (actions : List Action) : Option State := actions.foldlM step s

/-- A `client_create` that reaches `client_create_thread` and fails there. -/
def ClientSteps.failsInThread (steps : ClientSteps) : Bool :=
  steps.allocOk && steps.eventfd.isSome && steps.entryOk && !steps.threadOk

/-- An action in which `client_create_thread` fails. -/
def Action.failsInThread : Action → Bool
  | .threadDone _ => false
  | .round _ accept _ => accept.create.failsInThread

/-! ## The agreement -/

/-- **Client bookkeeping**: entries for clients refer to clients of the queue and their open
`cleanup_fd`, each client has one, and no client has been destroyed twice. -/
structure Bookkeeping (s : State) : Prop where
  refers : ∀ e ∈ s.loop.entries, ∀ addr, e.handler = .clientDestroy addr →
    ∃ client ∈ s.server.clientQueue, client.addr = addr ∧ e.fd = client.cleanupFd ∧
      (client.cleanupFd, client.cleanupFile) ∈ s.server.fds.opened
  one_entry : ∀ client ∈ s.server.clientQueue,
    s.loop.entries.countP (fun e => e.handler = .clientDestroy client.addr) = 1
  destroyed_once : s.server.destroyed.Nodup

/-! ## The invariant -/

/-- The two descriptors of a client. -/
def Client.descriptors (client : Client) : List (Nat × Nat) :=
  [(client.cleanupFd, client.cleanupFile), (client.connFd, client.connFile)]

/-- The client an entry is for, and the descriptor it waits on. -/
def clientEntry (e : EventFd Handler) : Option (Nat × Nat) :=
  match e.handler with
  | .clientDestroy addr => some (addr, e.fd)
  | _ => none

/-- The descriptors the server is responsible for: two for each client, and those in `held`. -/
def TcpServer.descriptors (server : TcpServer) (held : List (Nat × Nat)) : List (Nat × Nat) :=
  server.clientQueue.flatMap Client.descriptors ++ held

/-- The invariant of the server: `acceptFd` is its socket, and `held` are the descriptors that
are the server's and no client's. -/
structure ServerInv (acceptFd : Nat) (held : List (Nat × Nat)) (server : TcpServer) : Prop where
  listens : server.acceptFd = acceptFd
  owned : Owned server.fds (server.descriptors held)
  stray : server.fds.stray = []
  accepted : ∀ file ∈ server.accepted,
    file ∈ server.fds.closed ∨ file ∈ (server.descriptors held).map Prod.snd
  addrs : (server.clientQueue.map Client.addr ++ server.destroyed).Nodup
  allocated : ∀ addr ∈ server.clientQueue.map Client.addr ++ server.destroyed,
    addr < server.fresh

/-- The invariant of the event loop: its one-shot entries for clients are the clients of the
queue, in the queue's order. -/
structure LoopInv (loop : EventLoop Handler) (clientQueue : List Client) : Prop where
  entries : loop.entries.filterMap clientEntry =
    clientQueue.map fun client => (client.addr, client.cleanupFd)
  once : ∀ e ∈ loop.entries, (clientEntry e).isSome = true → e.once = true

section ServerInv

variable {acceptFd : Nat} {held : List (Nat × Nat)} {server : TcpServer}

theorem ServerInv.openFd {fd : Nat} {fds : FdTable} (h : ServerInv acceptFd held server)
    (hopen : openFd server.fds fd = some fds) :
    ServerInv acceptFd ((fd, server.fds.next) :: held) { server with fds } := by
  obtain ⟨-, hclosed, hstray, -, -⟩ := openFd_spec hopen
  have hperm : ((fd, server.fds.next) :: server.descriptors held).Perm
      (server.descriptors ((fd, server.fds.next) :: held)) := List.perm_middle.symm
  refine ⟨h.listens, (h.owned.openFd hopen).perm hperm, hstray.trans h.stray, ?_, h.addrs,
    h.allocated⟩
  intro file hfile
  rcases h.accepted file hfile with hc | hd
  · exact .inl (hclosed ▸ hc)
  · exact .inr ((hperm.map Prod.snd).mem_iff.1 (List.mem_cons_of_mem _ hd))

theorem ServerInv.close {fd file : Nat} (h : ServerInv acceptFd ((fd, file) :: held) server) :
    ServerInv acceptFd held { server with fds := close server.fds fd } := by
  have hperm : (server.descriptors ((fd, file) :: held)).Perm
      ((fd, file) :: server.descriptors held) := List.perm_middle
  have howned := h.owned.perm hperm
  obtain ⟨hclosed, hstray, -⟩ := close_spec (howned.opened _ List.mem_cons_self)
  refine ⟨h.listens, howned.close, hstray.trans h.stray, ?_, h.addrs, h.allocated⟩
  intro f hf
  show f ∈ (Descriptors.close server.fds fd).closed ∨ _
  rw [hclosed]
  rcases h.accepted f hf with hc | hd
  · exact .inl (List.mem_cons_of_mem _ hc)
  · rcases List.mem_cons.1 ((hperm.map Prod.snd).mem_iff.1 hd) with rfl | hd
    · exact .inl List.mem_cons_self
    · exact .inr hd

/-- **What `client_destroy` does to a client of the queue**: it leaves the queue, and both of
its descriptors are closed. -/
theorem clientDestroy_spec {before after : List Client} {client : Client}
    (h : ServerInv acceptFd held server)
    (hqueue : server.clientQueue = before ++ client :: after) :
    ∃ server', clientDestroy client.addr server = some server' ∧
      server'.clientQueue = before ++ after ∧ server'.accepted = server.accepted ∧
      ServerInv acceptFd held server' := by
  have hnodup := h.addrs
  rw [hqueue, List.map_append, List.map_cons, List.append_assoc, List.nodup_append] at hnodup
  have hnew : client.addr ∉ before.map Client.addr := fun hmem =>
    hnodup.2.2 _ hmem _ (by simp) rfl
  have hfind : server.clientQueue.find? (fun c => c.addr = client.addr) = some client := by
    have hbefore : before.find? (fun c => c.addr = client.addr) = none := by
      rw [List.find?_eq_none]
      intro c hc heq
      exact hnew (List.mem_map.2 ⟨c, hc, by simpa using heq⟩)
    rw [hqueue, List.find?_append, hbefore]
    simp
  have hremove : TailQueue.remove Client.addr client.addr server.clientQueue =
      some (before ++ after) := by
    rw [hqueue]
    exact TailQueue.remove_append hnew
  have hdestroy : clientDestroy client.addr server = some { server with
      clientQueue := before ++ after
      fds := close (close server.fds client.cleanupFd) client.connFd
      destroyed := client.addr :: server.destroyed } := by
    simp only [clientDestroy, hfind, hremove]
    rfl
  refine ⟨_, hdestroy, rfl, rfl, ?_⟩
  -- the client's two descriptors are held between leaving the queue and being closed
  have hleft : ServerInv acceptFd (client.descriptors ++ held)
      { server with
        clientQueue := before ++ after, destroyed := client.addr :: server.destroyed } := by
    have hperm : (server.descriptors held).Perm
        ((before ++ after).flatMap Client.descriptors ++ (client.descriptors ++ held)) := by
      simp only [TcpServer.descriptors, hqueue, List.flatMap_append, List.flatMap_cons,
        List.append_assoc]
      refine List.Perm.append_left _ ?_
      rw [← List.append_assoc, ← List.append_assoc]
      exact List.Perm.append_right _ List.perm_append_comm
    have haddrs : (server.clientQueue.map Client.addr ++ server.destroyed).Perm
        ((before ++ after).map Client.addr ++ client.addr :: server.destroyed) := by
      simp only [hqueue, List.map_append, List.map_cons, List.append_assoc, List.cons_append]
      refine List.Perm.append_left _ ?_
      exact List.perm_middle.symm
    refine ⟨h.listens, h.owned.perm hperm, h.stray, ?_, haddrs.nodup_iff.1 h.addrs, ?_⟩
    · intro file hfile
      exact (h.accepted file hfile).imp_right (hperm.map Prod.snd).mem_iff.1
    · intro addr haddr
      exact h.allocated addr (haddrs.mem_iff.2 haddr)
  exact hleft.close.close

theorem clientDestroy_destroyed {addr : Nat} {server server' : TcpServer}
    (h : clientDestroy addr server = some server') :
    server'.destroyed = addr :: server.destroyed := by
  unfold clientDestroy at h
  split at h
  · cases h
  · obtain ⟨_, -, h⟩ := Option.bind_eq_some_iff.1 h
    cases h
    rfl

/-- A new client that takes over two held descriptors joins the queue. -/
theorem ServerInv.insert (client : Client)
    (h : ServerInv acceptFd (client.descriptors ++ held) server)
    (haddr : client.addr = server.fresh) :
    ServerInv acceptFd held { server with
      fresh := server.fresh + 1, clientQueue := server.clientQueue ++ [client] } := by
  have hsame : server.descriptors (client.descriptors ++ held) =
      (server.clientQueue ++ [client]).flatMap Client.descriptors ++ held := by
    simp [TcpServer.descriptors]
  have haddrs : ((server.clientQueue ++ [client]).map Client.addr ++ server.destroyed).Perm
      (server.fresh :: (server.clientQueue.map Client.addr ++ server.destroyed)) := by
    simp only [List.map_append, List.map_cons, List.map_nil, List.append_assoc,
      List.singleton_append, haddr]
    exact List.perm_middle
  have hnodup : (server.fresh ::
      (server.clientQueue.map Client.addr ++ server.destroyed)).Nodup :=
    List.nodup_cons.2 ⟨fun hmem => Nat.lt_irrefl _ (h.allocated _ hmem), h.addrs⟩
  have howned := h.owned
  have haccepted := h.accepted
  rw [hsame] at howned haccepted
  refine ⟨h.listens, howned, h.stray, haccepted, haddrs.nodup_iff.2 hnodup, ?_⟩
  · intro addr hmem
    show addr < server.fresh + 1
    rcases List.mem_cons.1 (haddrs.mem_iff.1 hmem) with rfl | hmem
    · exact Nat.lt_succ_self _
    · exact Nat.lt_succ_of_lt (h.allocated addr hmem)

theorem ServerInv.skip (h : ServerInv acceptFd held server) :
    ServerInv acceptFd held { server with fresh := server.fresh + 1 } :=
  { h with allocated := fun addr haddr => Nat.lt_succ_of_lt (h.allocated addr haddr) }

end ServerInv

/-! ## Steps -/

theorem LoopInv.insert {loop : EventLoop Handler} {clientQueue : List Client}
    (h : LoopInv loop clientQueue) (client : Client) :
    LoopInv (eventLoopAddInternal loop client.cleanupFd pollIn (.clientDestroy client.addr) true)
      (clientQueue ++ [client]) := by
  refine ⟨?_, ?_⟩
  · simp [eventLoopAddInternal, h.entries, clientEntry, List.filterMap_append]
  · intro e he hsome
    rcases List.mem_append.1 he with he | he
    · exact h.once e he hsome
    · simp [List.mem_singleton.1 he]

variable {acceptFd : Nat} {held : List (Nat × Nat)}

/-- **What `client_create` can do**: it fails, with the connection's descriptor still the caller's
and an entry left behind at most if its last step fails; or the descriptor is a new client's, which
has an entry. -/
theorem clientCreate_cases (steps : ClientSteps) {connFd connFile : Nat}
    (loop : EventLoop Handler) {server : TcpServer}
    (hserver : ServerInv acceptFd ((connFd, connFile) :: held) server) :
    (∃ loop' server' added, clientCreate steps connFd connFile loop server =
        some (-1, loop', server') ∧ loop'.entries = loop.entries ++ added ∧
      (∀ e ∈ added, e.once = true) ∧ (steps.failsInThread = false → added = []) ∧
      server'.clientQueue = server.clientQueue ∧ server'.destroyed = server.destroyed ∧
      ServerInv acceptFd ((connFd, connFile) :: held) server') ∨
    ∃ server' client, clientCreate steps connFd connFile loop server = some (0,
        eventLoopAddInternal loop client.cleanupFd pollIn (.clientDestroy client.addr) true,
        server') ∧
      server'.clientQueue = server.clientQueue ++ [client] ∧ client.addr = server.fresh ∧
      server'.destroyed = server.destroyed ∧ ServerInv acceptFd held server' := by
  obtain ⟨allocOk, eventfd, entryOk, threadOk⟩ := steps
  unfold clientCreate
  cases allocOk with
  | false => exact .inl ⟨loop, server, [], rfl, by simp, by simp, fun _ => rfl, rfl, rfl, hserver⟩
  | true =>
    simp only [Bool.not_true, Bool.false_eq_true, if_false]
    split
    · exact .inl ⟨loop, _, [], rfl, by simp, by simp, fun _ => rfl, rfl, rfl, hserver.skip⟩
    · rename_i cleanupFd fds hopen
      obtain ⟨fd, rfl, hopen⟩ := Option.bind_eq_some_iff.1 hopen
      obtain ⟨_, hopen, heq⟩ := Option.map_eq_some_iff.1 hopen
      cases heq
      have hheld := hserver.openFd hopen
      cases entryOk with
      | false =>
        exact .inl ⟨loop, _, [], rfl, by simp, by simp, fun _ => rfl, rfl, rfl,
          hheld.close.skip⟩
      | true =>
        simp only [eventLoopAddOnce, if_true]
        cases threadOk with
        | true =>
          let client : Client := ⟨server.fresh, connFd, connFile, cleanupFd, server.fds.next, false⟩
          exact .inr ⟨_, client, rfl, rfl, rfl, rfl, hheld.insert client rfl⟩
        | false =>
          -- the new client leaves the queue, its entry stays
          have hnew : server.fresh ∉ server.clientQueue.map Client.addr := fun hmem =>
            Nat.lt_irrefl _ (hserver.allocated _ (List.mem_append_left _ hmem))
          let client : Client := ⟨server.fresh, connFd, connFile, cleanupFd, server.fds.next, false⟩
          have hremoved : TailQueue.remove Client.addr server.fresh (server.clientQueue ++
              [⟨server.fresh, connFd, connFile, cleanupFd, server.fds.next, false⟩]) =
                some server.clientQueue := TailQueue.remove_last (a := client) hnew
          simp only [Bool.false_eq_true, if_false, hremoved, Option.bind_eq_bind,
            Option.bind_some]
          exact .inl ⟨_, _, _, rfl, rfl, by simp, by simp [ClientSteps.failsInThread], rfl,
            rfl, hheld.close.skip⟩

/-- **What `tcp_server_accept` can do**: it fails, and a connection it does not hand to a client is
closed; or there is a new client with its entry. -/
theorem tcpServerAccept_cases (steps : AcceptSteps) (loop : EventLoop Handler)
    {server : TcpServer} (hserver : ServerInv acceptFd held server) :
    (∃ loop' server' added, tcpServerAccept steps loop server = some (-1, loop', server') ∧
      loop'.entries = loop.entries ++ added ∧ (∀ e ∈ added, e.once = true) ∧
      (steps.create.failsInThread = false → added = []) ∧
      server'.clientQueue = server.clientQueue ∧ server'.destroyed = server.destroyed ∧
      ServerInv acceptFd held server') ∨
    ∃ server' client, tcpServerAccept steps loop server = some (0,
        eventLoopAddInternal loop client.cleanupFd pollIn (.clientDestroy client.addr) true,
        server') ∧
      server'.clientQueue = server.clientQueue ++ [client] ∧ client.addr = server.fresh ∧
      server'.destroyed = server.destroyed ∧ ServerInv acceptFd held server' := by
  unfold tcpServerAccept
  split
  · exact .inl ⟨loop, server, [], rfl, by simp, by simp, fun _ => rfl, rfl, rfl, hserver⟩
  · rename_i connFd fds hopen
    obtain ⟨fd, -, hopen⟩ := Option.bind_eq_some_iff.1 hopen
    obtain ⟨_, hopen, heq⟩ := Option.map_eq_some_iff.1 hopen
    cases heq
    have hheld : ServerInv acceptFd ((connFd, server.fds.next) :: held)
        { server with fds, accepted := server.fds.next :: server.accepted } := by
      have h := hserver.openFd hopen
      refine { h with accepted := fun file hfile => ?_ }
      rcases List.mem_cons.1 hfile with rfl | hfile
      · exact .inr (by simp [TcpServer.descriptors])
      · exact h.accepted file hfile
    have hfail : (-1 : Int32) < 0 := by decide
    have hzero : ¬ (0 : Int32) < 0 := by decide
    rcases clientCreate_cases steps.create loop hheld with
      ⟨loop', server', added, h, hentries, honce, hnone, hqueue, hdestroyed, hserver'⟩ |
      ⟨server', client, h, hqueue, haddr, hdestroyed, hserver'⟩
    · refine .inl ⟨loop', _, added, ?_, hentries, honce, hnone, ?_, ?_, hserver'.close⟩
      · simp only [h, Option.bind_eq_bind, Option.bind_some, if_pos hfail]
      · exact hqueue
      · exact hdestroyed
    · refine .inr ⟨server', client, ?_, hqueue, haddr, hdestroyed, hserver'⟩
      simp only [h, Option.bind_eq_bind, Option.bind_some, if_neg hzero]

/-- **`tcp_server_accept`** keeps the invariant: a connection it does not hand to a client is
closed. -/
theorem tcpServerAccept_spec {steps : AcceptSteps} (hsteps : steps.create.failsInThread = false)
    {loop : EventLoop Handler} {server : TcpServer} (hserver : ServerInv acceptFd held server)
    (hloop : LoopInv loop server.clientQueue) :
    ∃ ret loop' server' added, tcpServerAccept steps loop server = some (ret, loop', server') ∧
      loop'.entries = loop.entries ++ added ∧ LoopInv loop' server'.clientQueue ∧
      ServerInv acceptFd held server' := by
  rcases tcpServerAccept_cases steps loop hserver with
    ⟨loop', server', added, h, hentries, -, hnone, hqueue, -, hserver'⟩ |
    ⟨server', client, h, hqueue, -, -, hserver'⟩
  · rw [hnone hsteps, List.append_nil] at hentries
    refine ⟨-1, loop', server', [], h, by rw [hentries, List.append_nil], ?_, hserver'⟩
    rw [hqueue]
    exact ⟨by rw [hentries]; exact hloop.entries, by rw [hentries]; exact hloop.once⟩
  · refine ⟨0, _, server', _, h, rfl, ?_, hserver'⟩
    rw [hqueue]
    exact hloop.insert client

/-- The invariant of the event loop and the server together. -/
def Inv (acceptFd : Nat) (held : List (Nat × Nat)) (loop : EventLoop Handler)
    (server : TcpServer) : Prop :=
  ServerInv acceptFd held server ∧ LoopInv loop server.clientQueue

theorem LoopInv.split {loop : EventLoop Handler} {clientQueue : List Client}
    {before after : List (EventFd Handler)} {entry : EventFd Handler} {addr : Nat}
    (h : LoopInv loop clientQueue) (hentries : loop.entries = before ++ entry :: after)
    (hentry : entry.handler = .clientDestroy addr) :
    ∃ before' client after', clientQueue = before' ++ client :: after' ∧ client.addr = addr ∧
      client.cleanupFd = entry.fd ∧
      (before ++ after).filterMap clientEntry =
        (before' ++ after').map fun client => (client.addr, client.cleanupFd) := by
  have hclient : clientEntry entry = some (addr, entry.fd) := by simp [clientEntry, hentry]
  have heq := h.entries
  rw [hentries, List.filterMap_append, List.filterMap_cons_some hclient, eq_comm,
    List.map_eq_append_iff] at heq
  obtain ⟨before', rest, rfl, hbefore, hrest⟩ := heq
  obtain ⟨client, after', rfl, hpair, hafter⟩ := List.map_eq_cons_iff.1 hrest
  rw [Prod.mk.injEq] at hpair
  exact ⟨before', client, after', rfl, hpair.1, hpair.2,
    by simp [List.filterMap_append, hbefore, hafter]⟩

theorem LoopInv.handled {loop loop' : EventLoop Handler} {clientQueue : List Client}
    {before after : List (EventFd Handler)} {entry : EventFd Handler}
    (h : LoopInv loop clientQueue) (hentries : loop.entries = before ++ entry :: after)
    (hentry : clientEntry entry = none)
    (hentries' : loop'.entries = before ++ (if entry.once then [] else [entry]) ++ after) :
    LoopInv loop' clientQueue := by
  refine ⟨?_, fun e he => h.once e ?_⟩
  · rw [← h.entries, hentries', hentries]
    cases entry.once <;> simp [List.filterMap_append, hentry]
  · rw [hentries'] at he
    rw [hentries]
    simp only [List.mem_append, List.mem_cons] at he ⊢
    rcases he with (he | he) | he
    · exact .inl he
    · split at he
      · cases he
      · exact .inr (.inl (List.mem_singleton.1 he))
    · exact .inr (.inr he)

/-- **Every handler keeps the invariant.** -/
theorem handlers_keep {accept : AcceptSteps} (haccept : accept.create.failsInThread = false)
    (other : Nat → Int32) : Keeps (handlers accept other) (Inv acceptFd held) := by
  intro before after entry p loop server hentries ⟨hserver, hloop⟩
  cases hentry : entry.handler with
  | clientDestroy addr =>
    obtain ⟨before', client, after', hqueue, rfl, -, hrest⟩ := hloop.split hentries hentry
    obtain ⟨server', hdestroy, hqueue', -, hserver'⟩ := clientDestroy_spec hserver hqueue
    have hcall : handlers accept other entry.handler p.fd p.revents loop server =
        some (0, loop, server') := by simp [handlers, hentry, hdestroy]
    obtain ⟨loop', hhandle, hentries'⟩ := handleEntry_spec hcall hentries
    have honce : entry.once = true :=
      hloop.once entry (by simp [hentries]) (by simp [clientEntry, hentry])
    simp only [honce, if_true, List.append_nil] at hentries'
    refine ⟨0, loop', server', [], [], hhandle, ⟨hserver', ?_, ?_⟩, by simp [hentries']⟩
    · rw [hentries', hqueue', hrest]
    · intro e he
      refine hloop.once e ?_
      rw [hentries'] at he
      rw [hentries]
      exact (List.Sublist.append_left (List.sublist_cons_self entry after) before).subset he
  | accept =>
    obtain ⟨ret, loop₁, server', added, haccepted, hadded, hloop₁, hserver'⟩ :=
      tcpServerAccept_spec haccept hserver hloop
    have hcall : handlers accept other entry.handler p.fd p.revents loop server =
        some (ret, loop₁, server') := by simp [handlers, hentry, haccepted]
    have hentries₁ : loop₁.entries = before ++ entry :: (after ++ added) := by
      simp [hadded, hentries]
    obtain ⟨loop', hhandle, hentries'⟩ := handleEntry_spec hcall hentries₁
    exact ⟨ret, loop', server', _, added, hhandle,
      ⟨hserver', hloop₁.handled hentries₁ (by simp [clientEntry, hentry]) hentries'⟩,
      by rw [hentries', List.append_assoc _ after added]⟩
  | other id =>
    have hcall : handlers accept other entry.handler p.fd p.revents loop server =
        some (other id, loop, server) := by simp [handlers, hentry]
    obtain ⟨loop', hhandle, hentries'⟩ := handleEntry_spec hcall hentries
    exact ⟨other id, loop', server, _, [], hhandle,
      ⟨hserver, hloop.handled hentries (by simp [clientEntry, hentry]) hentries'⟩,
      by rw [hentries', List.append_nil]⟩

/-! ## Runs -/

theorem Client.done_addr (addr : Nat) (client : Client) :
    (client.done addr).addr = client.addr := by
  unfold Client.done
  split <;> rfl

theorem Client.done_descriptors (addr : Nat) (client : Client) :
    (client.done addr).descriptors = client.descriptors := by
  unfold Client.done
  split <;> rfl

theorem Client.done_cleanupFd (addr : Nat) (client : Client) :
    (client.done addr).cleanupFd = client.cleanupFd := by
  unfold Client.done
  split <;> rfl

theorem map_done_addr (clients : List Client) (addr : Nat) :
    (clients.map (Client.done addr)).map Client.addr = clients.map Client.addr := by
  simp [Function.comp_def, Client.done_addr]

theorem ServerInv.done {server : TcpServer} (h : ServerInv acceptFd held server) (addr : Nat) :
    ServerInv acceptFd held
      { server with clientQueue := server.clientQueue.map (Client.done addr) } := by
  have hdescriptors : TcpServer.descriptors
      { server with clientQueue := server.clientQueue.map (Client.done addr) } held =
        server.descriptors held := by
    simp [TcpServer.descriptors, List.flatMap_map, Client.done_descriptors]
  refine ⟨h.listens, ?_, h.stray, ?_, ?_, ?_⟩
  · rw [hdescriptors]
    exact h.owned
  · rw [hdescriptors]
    exact h.accepted
  · rw [map_done_addr]
    exact h.addrs
  · rw [map_done_addr]
    exact h.allocated

theorem step_inv {s : State} (h : Inv acceptFd held s.loop s.server) {action : Action}
    (haction : action.failsInThread = false) :
    ∃ s', step s action = some s' ∧ Inv acceptFd held s'.loop s'.server := by
  obtain ⟨hserver, hloop⟩ := h
  cases action with
  | threadDone addr =>
    refine ⟨_, rfl, hserver.done addr, ?_, hloop.once⟩
    rw [hloop.entries, List.map_map]
    refine List.map_congr_left fun client _ => ?_
    simp [Client.done_addr, Client.done_cleanupFd]
  | round revents accept other =>
    obtain ⟨ret, loop', server', hrun, hinv⟩ :=
      eventLoopRun_invariant (handlers_keep haction other) revents
        (show Inv acceptFd held s.loop s.server from ⟨hserver, hloop⟩)
    exact ⟨⟨loop', server'⟩, by simp [step, hrun], hinv⟩

theorem run_inv (actions : List Action) {s : State} (h : Inv acceptFd held s.loop s.server)
    (hactions : ∀ action ∈ actions, action.failsInThread = false) :
    ∃ s', run s actions = some s' ∧ Inv acceptFd held s'.loop s'.server :=
  Runs.foldlM_some (I := fun s : State => Inv acceptFd held s.loop s.server)
    (fun _ h action haction => step_inv h (hactions action haction)) h

/-- A new server has no clients, and owns its socket. -/
theorem tcpServerCreate_inv {allocOk : Bool} {loop : EventLoop Handler} {fds : FdTable}
    {s : State} (hloop : ∀ e ∈ loop.entries, clientEntry e = none) (hstray : fds.stray = [])
    (hcreate : tcpServerCreate allocOk loop fds acceptFd = some (s.loop, s.server)) :
    Inv acceptFd [(acceptFd, fds.next)] s.loop s.server := by
  unfold tcpServerCreate at hcreate
  obtain ⟨fds', hopen, hcreate⟩ := Option.bind_eq_some_iff.1 hcreate
  obtain ⟨loop', hadd, hcreate⟩ := Option.bind_eq_some_iff.1 hcreate
  obtain ⟨-, -, hstray', -, -⟩ := openFd_spec hopen
  unfold eventLoopAdd at hadd
  split at hadd
  · simp only [Option.some.injEq, Prod.mk.injEq] at hadd hcreate
    obtain ⟨hl, hs⟩ := hcreate
    rw [← hl, ← hs, ← hadd]
    have hempty : Owned fds [] := ⟨by simp, List.nodup_nil⟩
    refine ⟨⟨rfl, hempty.openFd hopen, hstray'.trans hstray, by simp, List.nodup_nil, by simp⟩,
      ?_, ?_⟩
    · have hnone : loop.entries.filterMap clientEntry = [] := List.filterMap_eq_nil_iff.2 hloop
      simp [eventLoopAddInternal, List.filterMap_append, hnone, clientEntry]
    · intro e he hsome
      rcases List.mem_append.1 he with he | he
      · simp [hloop e he] at hsome
      · simp [List.mem_singleton.1 he, clientEntry] at hsome
  · cases hadd

/-- **Destroying every client of the queue** closes every connection that was accepted. -/
theorem clientQueueDestroy_spec (clients : List Client) :
    ∀ {server : TcpServer}, ServerInv acceptFd held server → server.clientQueue = clients →
      ∃ server', clientQueueDestroy clients server = some server' ∧ server'.clientQueue = [] ∧
        server'.accepted = server.accepted ∧ ServerInv acceptFd held server' := by
  induction clients with
  | nil => intro server h hqueue; exact ⟨server, rfl, hqueue, rfl, h⟩
  | cons client clients ih =>
    intro server h hqueue
    have hfirst : server.clientQueue = [] ++ client :: clients := hqueue
    obtain ⟨server₁, hdestroy, hqueue₁, haccepted₁, h₁⟩ := clientDestroy_spec h hfirst
    obtain ⟨server', hrest, hqueue', haccepted', h'⟩ := ih h₁ hqueue₁
    exact ⟨server', by simp [clientQueueDestroy, hdestroy, hrest], hqueue',
      haccepted'.trans haccepted₁, h'⟩

theorem countP_clientDestroy (entries : List (EventFd Handler)) (addr : Nat) :
    entries.countP (fun e => e.handler = .clientDestroy addr) =
      ((entries.filterMap clientEntry).map Prod.fst).count addr := by
  induction entries with
  | nil => rfl
  | cons e entries ih =>
    rw [List.countP_cons, ih, List.filterMap_cons]
    cases h : e.handler <;> simp [clientEntry, h, List.count_cons]

theorem Inv.bookkeeping {s : State} (h : Inv acceptFd held s.loop s.server) : Bookkeeping s := by
  obtain ⟨hserver, hloop⟩ := h
  refine ⟨?_, ?_, (List.nodup_append.1 hserver.addrs).2.1⟩
  · intro e he addr haddr
    obtain ⟨before, after, hsplit⟩ := List.append_of_mem he
    obtain ⟨before', client, after', hqueue, hclient, hfd, -⟩ := hloop.split hsplit haddr
    have hmem : client ∈ s.server.clientQueue := by simp [hqueue]
    refine ⟨client, hmem, hclient, hfd.symm, hserver.owned.opened _ ?_⟩
    exact List.mem_append_left _ (List.mem_flatMap.2 ⟨client, hmem, by simp [Client.descriptors]⟩)
  · intro client hclient
    have hnodup := (List.nodup_append.1 hserver.addrs).1
    rw [countP_clientDestroy, hloop.entries, List.map_map]
    exact List.count_eq_one_of_mem hnodup (List.mem_map.2 ⟨client, hclient, rfl⟩)

/-- **Client bookkeeping.**  In every run of a server in which no `client_create` fails in
`client_create_thread`, whatever else fails and in whatever order threads finish, the queue, the
event loop and the descriptors agree, and `tcp_server_destroy` then leaves every connection that
was ever accepted closed exactly once, with no other descriptor closed by mistake. -/
theorem client_bookkeeping (loop : EventLoop Handler) (fds : FdTable) (acceptFd : Nat)
    (start : State) (actions : List Action)
    (hloop : ∀ e ∈ loop.entries, clientEntry e = none) (hstray : fds.stray = [])
    (hstart : tcpServerCreate true loop fds acceptFd = some (start.loop, start.server))
    (hactions : ∀ action ∈ actions, action.failsInThread = false) :
    ∃ s, run start actions = some s ∧ Bookkeeping s ∧
      ∃ final, tcpServerDestroy s.server = some final ∧ final.destroyed.Nodup ∧
        final.fds.stray = [] ∧ ∀ file ∈ s.server.accepted, final.fds.closed.count file = 1 := by
  obtain ⟨s, hrun, hinv⟩ := run_inv actions (tcpServerCreate_inv hloop hstray hstart) hactions
  refine ⟨s, hrun, hinv.bookkeeping, ?_⟩
  have hclosed := hinv.1.close
  rw [← hinv.1.listens] at hclosed
  obtain ⟨final, hdestroy, hqueue, haccepted, hfinal⟩ :=
    clientQueueDestroy_spec s.server.clientQueue hclosed rfl
  refine ⟨final, hdestroy, (List.nodup_append.1 hfinal.addrs).2.1, hfinal.stray, ?_⟩
  · intro file hfile
    rcases hfinal.accepted file (by rw [haccepted]; exact hfile) with hc | hd
    · exact count_closed _ hc
    · simp [TcpServer.descriptors, hqueue] at hd

/-- A descriptor table in which nothing is open. -/
def noFds : FdTable := ⟨[], [], [], 0, List.nodup_nil, List.nodup_nil, bounded_nil⟩

/-- A round in which `poll` reports every descriptor readable and a connection arrives. -/
def acceptRound (threadOk : Bool) : Action :=
  .round (some fun _ => pollIn) ⟨some 4, true, some 5, true, threadOk⟩ fun _ => 0

/-- A client whose thread could not be created leaves its entry in the event loop: the entry
refers to no client, and the next round calls its handler on freed memory. -/
theorem client_bookkeeping_broken :
    ∃ start s, tcpServerCreate true eventLoopCreate noFds 3 = some (start.loop, start.server) ∧
      run start [acceptRound false] = some s ∧ ¬ Bookkeeping s ∧
      run start [acceptRound false, acceptRound true] = none := by
  refine ⟨⟨_, _⟩, _, rfl, rfl, fun h => ?_, rfl⟩
  obtain ⟨client, hmem, -⟩ := h.refers _ (List.mem_cons_of_mem _ List.mem_cons_self) 0 rfl
  cases hmem

/-- A connection accepted, its thread done, its client destroyed, and the server destroyed. -/
theorem client_bookkeeping_accepted :
    ∃ start s, tcpServerCreate true eventLoopCreate noFds 3 = some (start.loop, start.server) ∧
      run start [acceptRound true, .threadDone 0, acceptRound true] = some s ∧ Bookkeeping s ∧
      s.server.accepted.length = 1 ∧ s.server.destroyed = [0] ∧
      ∃ final, tcpServerDestroy s.server = some final ∧ final.destroyed.Nodup ∧
        final.fds.stray = [] ∧
        ∀ file ∈ s.server.accepted, final.fds.closed.count file = 1 := by
  obtain ⟨s, hrun, hbook, hfinal⟩ := client_bookkeeping eventLoopCreate noFds 3 ⟨_, _⟩
    [acceptRound true, .threadDone 0, acceptRound true] (by simp [eventLoopCreate]) rfl rfl
    (by simp [acceptRound, Action.failsInThread, ClientSteps.failsInThread])
  refine ⟨_, s, rfl, hrun, hbook, ?_, ?_, hfinal⟩ <;> cases hrun <;> rfl

end Cimple.Tcp
