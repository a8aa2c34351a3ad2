import Cimple.Lib.Ledger
import Cimple.Startup

/-!
# Sockets (`net_bind`, `net_connect`)

Both functions go through the addresses that `getaddrinfo` finds, and keep the socket of the first
one that can be used.  The ledger has the list of addresses and the socket of every address.

* `tryAddrs` — the loop over the addresses, with its label `close_socket`.
* `netBind`, `netConnect` — the functions.
* `KeepsFirst` — a descriptor is returned and everything else is released, or nothing is left.

Principal results: `tryAddrs_spec` and `net_keeps_first`.
-/

set_option autoImplicit false

namespace Cimple.Sockets

open Ledger
open Cimple.Startup (Fault)

/-! ## The source -/

/-- What a call acquires: the list of `getaddrinfo`, and the socket of the address at a position. -/
inductive Res where
  | addrs
  | socket (i : Nat)
  deriving DecidableEq

/-- A descriptor. -/
abbrev Fd := { fd : Int32 // ¬ fd < 0 }

/-- What a call on a new socket is given: the socket, or the address in the list. -/
inductive Arg where
  | socketFd
  | aiAddr

/-- The use of an argument, for the address at position `i`. -/
def Arg.use (i : Nat) : Arg → Event Res
  | .socketFd => .use (.socket i)
  | .aiAddr => .use .addrs

/-- An address to bind to, and how the calls for it end: `socket`, `setsockopt` twice, `bind`. -/
structure BindAddr where
  inet6 : Bool
  socket : Option Fd
  v6only : Bool
  reuseaddr : Bool
  bind : Bool

/-- What `net_bind` does with the socket of an address, up to `break` or `close_socket`. -/
def BindAddr.setUp (it : BindAddr) : Bool × List Arg :=
  let v6only := if it.inet6 then [.socketFd] else []
  if it.inet6 && !it.v6only then (false, v6only)
  else if !it.reuseaddr then (false, v6only ++ [.socketFd])
  else (it.bind, v6only ++ [.socketFd, .socketFd, .aiAddr])

/-- An address to connect to. -/
structure ConnectAddr where
  socket : Option Fd
  connect : Bool

/-- What `net_connect` does with the socket of an address. -/
def ConnectAddr.setUp (it : ConnectAddr) : Bool × List Arg := (it.connect, [.socketFd, .aiAddr])

/-- The calls for an address that has a socket, up to `break` or `close_socket`. -/
def setUpEvents (args : List Arg) (i : Nat) : List (Event Res) :=
  [.use .addrs, .acquire (.socket i)] ++ args.map (Arg.use i)

/-- The loop over the addresses, from position `i` on: where it breaks, with which descriptor. -/
def tryAddrs {α : Type} (socket : α → Option Fd) (setUp : α → Bool × List Arg) :
    List α → (i : Nat) → Option (Nat × Fd) × List (Event Res)
  | [], _ => (none, [])
  | it :: rest, i =>
    match socket it with
    | none =>
      let (found, events) := tryAddrs socket setUp rest (i + 1)
      (found, .use .addrs :: events)
    | some fd =>
      if (setUp it).1 then (some (i, fd), setUpEvents (setUp it).2 i)
      else
        let (found, events) := tryAddrs socket setUp rest (i + 1)
        (found, setUpEvents (setUp it).2 i ++ .release (.socket i) :: events)

/-- The loop, between `getaddrinfo` and `freeaddrinfo`. -/
def tryList {α : Type} (socket : α → Option Fd) (setUp : α → Bool × List Arg) (addrs : List α) :
    Option (Nat × Fd) × List (Event Res) :=
  let (it, events) := tryAddrs socket setUp addrs 0
  (it, .acquire .addrs :: events ++ [.release .addrs])

/-- The value that is returned if there is no other. -/
def failure : { e : Int32 // e < 0 } := ⟨-1, by decide⟩

/-- What a function returns, a negative value or a descriptor, with the position of the address
whose socket that is; and what it acquires, uses and releases. -/
structure Opened where
  ret : Except { e : Int32 // e < 0 } (Nat × Fd)
  events : List (Event Res)

/-- How the calls of `net_bind` end: `getaddrinfo`, those for each address, and `listen`. -/
structure BindEnv where
  addrs : Option (List BindAddr)
  listen : Fault

/-- `net_bind`. -/
def netBind (env : BindEnv) : Opened :=
  match env.addrs with
  | none => ⟨.error failure, []⟩
  | some addrs =>
    let (it, events) := tryList BindAddr.socket BindAddr.setUp addrs
    match it with
    | none => ⟨.error failure, events⟩
    | some (i, fd) =>
      match env.listen with
      | some e => ⟨.error e, events ++ [.use (.socket i), .release (.socket i)]⟩
      | none => ⟨.ok (i, fd), events ++ [.use (.socket i)]⟩

/-- `net_connect`, with what `getaddrinfo` finds. -/
def netConnect (addrs : Option (List ConnectAddr)) : Opened :=
  match addrs with
  | none => ⟨.error failure, []⟩
  | some addrs =>
    let (it, events) := tryList ConnectAddr.socket ConnectAddr.setUp addrs
    match it with
    | none => ⟨.error failure, events⟩
    | some found => ⟨.ok found, events⟩

/-! ## The loop -/

section Loop

variable {α : Type} {socket : α → Option Fd} {setUp : α → Bool × List Arg}

/-- An address that can be used, and its descriptor. -/
def Usable (socket : α → Option Fd) (setUp : α → Bool × List Arg) (it : α) (fd : Fd) : Prop :=
  socket it = some fd ∧ (setUp it).1 = true

/-- The first address that can be used is at position `j`, counted from `i` on. -/
def FirstUsable (socket : α → Option Fd) (setUp : α → Bool × List Arg) (addrs : List α)
    (i j : Nat) (fd : Fd) : Prop :=
  ∃ before it after, addrs = before ++ it :: after ∧ j = i + before.length ∧
    Usable socket setUp it fd ∧ ∀ it' ∈ before, ∀ fd', ¬ Usable socket setUp it' fd'

theorem FirstUsable.here {it : α} {fd : Fd} (h : Usable socket setUp it fd) (rest : List α)
    (i : Nat) : FirstUsable socket setUp (it :: rest) i i fd :=
  ⟨[], it, rest, rfl, rfl, h, fun _ hmem => absurd hmem List.not_mem_nil⟩

theorem FirstUsable.there {it : α} (hit : ∀ fd, ¬ Usable socket setUp it fd) {rest : List α}
    {i j : Nat} {fd : Fd} (h : FirstUsable socket setUp rest (i + 1) j fd) :
    FirstUsable socket setUp (it :: rest) i j fd := by
  obtain ⟨before, it', after, rfl, rfl, husable, hbefore⟩ := h
  refine ⟨it :: before, it', after, rfl, ?_, husable, List.forall_mem_cons.2 ⟨hit, hbefore⟩⟩
  rw [List.length_cons]
  omega

theorem mem_map_use {args : List Arg} {i : Nat} {e : Event Res} (he : e ∈ args.map (Arg.use i)) :
    e = .use .addrs ∨ e = .use (.socket i) := by
  obtain ⟨arg, -, rfl⟩ := List.mem_map.1 he
  cases arg
  · exact .inr rfl
  · exact .inl rfl

theorem history_uses (args : List Arg) (i : Nat) (r : Res) :
    ∀ e ∈ history r (args.map (Arg.use i)), e = .use r := by
  intro e he
  obtain ⟨hmem, hr⟩ := List.mem_filter.1 he
  rcases mem_map_use hmem with rfl | rfl <;> exact congrArg Event.use (of_decide_eq_true hr)

theorem setUpEvents_list (args : List Arg) (i : Nat) :
    ∀ e ∈ history .addrs (setUpEvents args i), e = .use .addrs := by
  intro e he
  rw [setUpEvents, history_append, List.mem_append] at he
  rcases he with he | he
  · exact List.mem_singleton.1 he
  · exact history_uses args i .addrs e he

theorem setUpEvents_held (args : List Arg) (i : Nat) :
    Held (.socket i) (setUpEvents args i) := by
  refine Held.use ?_ (history_uses args i (.socket i))
  exact ⟨0, by simp [history_cons, Event.resource]⟩

theorem setUpEvents_other (args : List Arg) {i j : Nat} (hj : j ≠ i) :
    history (.socket j) (setUpEvents args i) = [] := by
  apply history_of_not_mem
  intro hmem
  obtain ⟨e, he, hresource⟩ := List.mem_map.1 hmem
  rcases List.mem_append.1 he with he | he
  · simp only [List.mem_cons, List.not_mem_nil, or_false] at he
    rcases he with rfl | rfl
    · cases hresource
    · exact hj (Res.socket.inj hresource).symm
  · rcases mem_map_use he with rfl | rfl
    · cases hresource
    · exact hj (Res.socket.inj hresource).symm

/-- **What the loop leaves**: the socket it breaks with, which is that of the first address that
can be used; every other one is closed. -/
structure Tried (socket : α → Option Fd) (setUp : α → Bool × List Arg) (addrs : List α) (i : Nat)
    (result : Option (Nat × Fd) × List (Event Res)) : Prop where
  list : ∀ e ∈ history .addrs result.2, e = .use .addrs
  before : ∀ j < i, history (.socket j) result.2 = []
  found : ∀ j fd, result.1 = some (j, fd) →
    FirstUsable socket setUp addrs i j fd ∧ Held (.socket j) result.2
  closed : ∀ j, (∀ fd, result.1 ≠ some (j, fd)) → Settled (.socket j) result.2
  none : result.1 = none → ∀ it ∈ addrs, ∀ fd, ¬ Usable socket setUp it fd

variable {it : α} {rest : List α} {i : Nat} {fd : Fd}
  {result : Option (Nat × Fd) × List (Event Res)}

theorem Tried.skip (h : Tried socket setUp rest (i + 1) result)
    (hit : ∀ fd, ¬ Usable socket setUp it fd) :
    Tried socket setUp (it :: rest) i (result.1, .use .addrs :: result.2) where
  list := List.forall_mem_cons.2 ⟨rfl, h.list⟩
  before j hj := h.before j (Nat.lt_succ_of_lt hj)
  found j fd hfound := ⟨(h.found j fd hfound).1.there hit, (h.found j fd hfound).2⟩
  closed j hj := (settled_congr rfl).2 (h.closed j hj)
  none hnone := List.forall_mem_cons.2 ⟨hit, h.none hnone⟩

theorem Tried.take (h : Usable socket setUp it fd) :
    Tried socket setUp (it :: rest) i (some (i, fd), setUpEvents (setUp it).2 i) where
  list := setUpEvents_list _ i
  before j hj := setUpEvents_other _ (Nat.ne_of_lt hj)
  found j fd' hfound := by
    cases hfound
    exact ⟨FirstUsable.here h rest i, setUpEvents_held _ i⟩
  closed j hj := by
    refine .inl (setUpEvents_other _ ?_)
    rintro rfl
    exact hj fd rfl
  none hnone := by cases hnone

/-- The turn of an address whose socket is closed again. -/
theorem Tried.close (h : Tried socket setUp rest (i + 1) result)
    (hit : ∀ fd, ¬ Usable socket setUp it fd) :
    Tried socket setUp (it :: rest) i
      (result.1, setUpEvents (setUp it).2 i ++ .release (.socket i) :: result.2) := by
  have hother : ∀ j, j ≠ i → history (.socket j)
      (setUpEvents (setUp it).2 i ++ .release (.socket i) :: result.2) =
        history (.socket j) result.2 := by
    intro j hj
    have hne : (Event.release (Res.socket i)).resource ≠ .socket j :=
      fun h => hj (Res.socket.inj h).symm
    rw [history_append, setUpEvents_other _ hj, history_cons_other hne, List.nil_append]
  refine ⟨?_, ?_, ?_, ?_, ?_⟩
  · intro e he
    rw [history_append, List.mem_append] at he
    rcases he with he | he
    · exact setUpEvents_list _ i e he
    · exact h.list e he
  · intro j hj
    exact (hother j (Nat.ne_of_lt hj)).trans (h.before j (Nat.lt_succ_of_lt hj))
  · intro j fd hfound
    obtain ⟨hfirst, n, hn⟩ := h.found j fd hfound
    have hj : j ≠ i := by
      obtain ⟨before, -, -, -, hj, -⟩ := hfirst
      omega
    exact ⟨hfirst.there hit, n, (hother j hj).trans hn⟩
  · intro j hj
    by_cases hji : j = i
    · rw [hji]
      apply (setUpEvents_held (setUp it).2 i).release
      rw [history_cons_self (by rfl), h.before i (Nat.lt_succ_self i)]
    · exact (settled_congr (hother j hji)).2 (h.closed j hj)
  · intro hnone
    exact List.forall_mem_cons.2 ⟨hit, h.none hnone⟩

/-- **The loop over the addresses** keeps the socket of the first that can be used. -/
theorem tryAddrs_spec (addrs : List α) :
    ∀ i, Tried socket setUp addrs i (tryAddrs socket setUp addrs i) := by
  induction addrs with
  | nil =>
    intro i
    refine ⟨?_, fun _ _ => rfl, ?_, fun j _ => .inl rfl, fun _ it hit => absurd hit List.not_mem_nil⟩
    · intro e he
      cases he
    · intro j fd hfound
      cases hfound
  | cons it rest ih =>
    intro i
    unfold tryAddrs
    cases hsocket : socket it with
    | none =>
      refine (ih (i + 1)).skip fun fd h => ?_
      cases hsocket.symm.trans h.1
    | some fd =>
      by_cases hsetUp : (setUp it).1 = true
      · simp only [hsetUp, if_true]
        exact Tried.take ⟨hsocket, hsetUp⟩
      · simp only [hsetUp, Bool.false_eq_true, if_false]
        exact (ih (i + 1)).close fun fd h => hsetUp h.2

/-- What the loop leaves once the list is freed. -/
theorem tryList_spec (addrs : List α) :
    Settled .addrs (tryList socket setUp addrs).2 ∧
      (∀ j fd, (tryList socket setUp addrs).1 = some (j, fd) →
        FirstUsable socket setUp addrs 0 j fd ∧ Held (.socket j) (tryList socket setUp addrs).2) ∧
      (∀ j, (∀ fd, (tryList socket setUp addrs).1 ≠ some (j, fd)) →
        Settled (.socket j) (tryList socket setUp addrs).2) ∧
      ((tryList socket setUp addrs).1 = none →
        ∀ it ∈ addrs, ∀ fd, ¬ Usable socket setUp it fd) := by
  have h : Tried socket setUp addrs 0 (tryAddrs socket setUp addrs 0) := tryAddrs_spec addrs 0
  have hsocket : ∀ j, history (.socket j) (tryList socket setUp addrs).2 =
      history (.socket j) (tryAddrs socket setUp addrs 0).2 := by
    intro j
    simp only [tryList, history_append, history_cons, Event.resource, reduceCtorEq, if_false,
      history_nil, List.append_nil]
  refine ⟨?_, ?_, ?_, h.none⟩
  · have hheld : Held .addrs ([.acquire .addrs] ++ (tryAddrs socket setUp addrs 0).2) :=
      Held.use ⟨0, rfl⟩ h.list
    exact hheld.release rfl
  · intro j fd hfound
    obtain ⟨hfirst, n, hn⟩ := h.found j fd hfound
    exact ⟨hfirst, n, (hsocket j).trans hn⟩
  · intro j hj
    exact (settled_congr (hsocket j)).2 (h.closed j hj)

end Loop

/-! ## Binding and connecting -/

/-- **The first address that can be used is kept**: a descriptor is returned exactly if there is
such an address and what is `after` the loop does not fail; it is that of the first such address,
whose socket is left open, and everything else is released.  If none is, nothing is left. -/
structure KeepsFirst {α : Type} (socket : α → Option Fd) (setUp : α → Bool × List Arg)
    (addrs : Option (List α)) (after : Fault) (opened : Opened) : Prop where
  failed : ∀ e, opened.ret = .error e → (∀ r, Settled r opened.events) ∧
    ¬ (after = none ∧ ∃ list, addrs = some list ∧ ∃ it ∈ list, ∃ fd, Usable socket setUp it fd)
  first : ∀ i fd, opened.ret = .ok (i, fd) → after = none ∧
    (∃ list, addrs = some list ∧ FirstUsable socket setUp list 0 i fd) ∧
    Held (.socket i) opened.events ∧ ∀ r, r ≠ .socket i → Settled r opened.events

section KeepsFirst

variable {α : Type} {socket : α → Option Fd} {setUp : α → Bool × List Arg} {list : List α}
  {after : Fault}

theorem KeepsFirst.unresolved : KeepsFirst socket setUp none after ⟨.error failure, []⟩ where
  failed _ _ := by
    refine ⟨fun _ => .inl rfl, ?_⟩
    rintro ⟨-, list, hlist, -⟩
    cases hlist
  first _ _ h := by cases h

theorem KeepsFirst.unusable (hnone : (tryList socket setUp list).1 = none) :
    KeepsFirst socket setUp (some list) after ⟨.error failure, (tryList socket setUp list).2⟩ := by
  obtain ⟨haddrs, -, hclosed, hall⟩ := @tryList_spec α socket setUp list
  refine ⟨fun e _ => ⟨fun r => ?_, ?_⟩, fun i fd h => (by cases h)⟩
  · cases r with
    | addrs => exact haddrs
    | socket j => exact hclosed j (by simp [hnone])
  · rintro ⟨-, list', hlist, it, hit, fd, husable⟩
    cases hlist
    exact hall hnone it hit fd husable

theorem tryList_rest {i : Nat} {fd : Fd} (hfound : (tryList socket setUp list).1 = some (i, fd))
    {r : Res} (hr : r ≠ .socket i) : Settled r (tryList socket setUp list).2 := by
  obtain ⟨haddrs, -, hclosed, -⟩ := @tryList_spec α socket setUp list
  cases r with
  | addrs => exact haddrs
  | socket j =>
    apply hclosed
    intro fd' heq
    cases hfound.symm.trans heq
    exact hr rfl

theorem KeepsFirst.returned {i : Nat} {fd : Fd}
    (hfound : (tryList socket setUp list).1 = some (i, fd)) {uses : List (Event Res)}
    (huses : ∀ e ∈ uses, e = .use (.socket i)) :
    KeepsFirst socket setUp (some list) none
      ⟨.ok (i, fd), (tryList socket setUp list).2 ++ uses⟩ := by
  obtain ⟨hfirst, hheld⟩ := (tryList_spec list).2.1 i fd hfound
  refine ⟨fun e h => (by cases h), fun i' fd' h => ?_⟩
  cases h
  refine ⟨rfl, ⟨list, rfl, hfirst⟩, ?_, fun r hr => ?_⟩
  · exact hheld.use fun e he => huses e (List.mem_filter.1 he).1
  · apply (tryList_rest hfound hr).frame
    refine List.filter_eq_nil_iff.2 fun e he heq => hr ?_
    rw [huses e he] at heq
    exact (of_decide_eq_true heq).symm

theorem KeepsFirst.closed {i : Nat} {fd : Fd}
    (hfound : (tryList socket setUp list).1 = some (i, fd)) (e : { e : Int32 // e < 0 }) :
    KeepsFirst socket setUp (some list) (some e)
      ⟨.error e, (tryList socket setUp list).2 ++ [.use (.socket i), .release (.socket i)]⟩ := by
  have hheld := ((tryList_spec list).2.1 i fd hfound).2
  refine ⟨fun e' _ => ⟨fun r => ?_, ?_⟩, fun i' fd' h => (by cases h)⟩
  · by_cases hr : r = .socket i
    · subst hr
      rw [List.append_cons]
      apply Held.release
      · exact hheld.use fun e he => List.mem_singleton.1 (List.mem_filter.1 he).1
      · simp [history_cons, Event.resource]
    · apply (tryList_rest hfound hr).frame
      simp [history_cons, Event.resource, Ne.symm hr]
  · rintro ⟨hnone, -⟩
    cases hnone

end KeepsFirst

theorem netBind_keeps (env : BindEnv) :
    KeepsFirst BindAddr.socket BindAddr.setUp env.addrs env.listen (netBind env) := by
  rcases env with ⟨addrs, listen⟩
  cases addrs with
  | none => exact KeepsFirst.unresolved
  | some list =>
    unfold netBind
    cases hfound : (tryList BindAddr.socket BindAddr.setUp list).1 with
    | none =>
      simp only [hfound]
      exact KeepsFirst.unusable hfound
    | some found =>
      simp only [hfound]
      cases listen with
      | some e => exact KeepsFirst.closed hfound e
      | none => exact KeepsFirst.returned hfound fun e he => List.mem_singleton.1 he

theorem netConnect_keeps (addrs : Option (List ConnectAddr)) :
    KeepsFirst ConnectAddr.socket ConnectAddr.setUp addrs none (netConnect addrs) := by
  cases addrs with
  | none => exact KeepsFirst.unresolved
  | some list =>
    unfold netConnect
    cases hfound : (tryList ConnectAddr.socket ConnectAddr.setUp list).1 with
    | none =>
      simp only [hfound]
      exact KeepsFirst.unusable hfound
    | some found =>
      simp only [hfound]
      have hreturned : KeepsFirst ConnectAddr.socket ConnectAddr.setUp (some list) none
          ⟨.ok found, (tryList ConnectAddr.socket ConnectAddr.setUp list).2 ++ []⟩ :=
        KeepsFirst.returned hfound fun e he => by cases he
      rwa [List.append_nil] at hreturned

/-- **`net_bind` and `net_connect` return the first address that can be used**, and leave nothing
else behind: for any list of addresses, whichever of the calls for them fail. -/
theorem net_keeps_first :
    (∀ env : BindEnv, KeepsFirst BindAddr.socket BindAddr.setUp env.addrs env.listen
      (netBind env)) ∧
    ∀ addrs : Option (List ConnectAddr),
      KeepsFirst ConnectAddr.socket ConnectAddr.setUp addrs none (netConnect addrs) :=
  ⟨netBind_keeps, netConnect_keeps⟩

end Cimple.Sockets
