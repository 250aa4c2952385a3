import Webapp.Data.Runs

namespace Webapp.Workers

open Webapp.Data

/-! `Socket_Connect`: the chain of callbacks from `create_socket` to the request
that is resumed.
-/

variable {Endpoint : Type}

inductive ErrorCode where
  | success
  | aborted
  | failed
deriving DecidableEq, Repr

/-- What `getaddrinfo` returns: an error or a list that is not empty. -/
inductive Lookup (Endpoint : Type) where
  | failed
  | found (first : Endpoint) (rest : List Endpoint)

/-- The completion of `async_resolve`.  `resolve_op` makes it from what
`getaddrinfo` returned; no part of the program cancels the resolver. -/
def Lookup.code : Lookup Endpoint → ErrorCode
  | .failed => .failed
  | .found _ _ => .success

def Lookup.endpoints : Lookup Endpoint → List Endpoint
  | .failed => []
  | .found first rest => first :: rest

inductive Connectivity (Endpoint : Type) where
  | closed
  | opened
  | connected (endpoint : Endpoint)
deriving DecidableEq, Repr

/-- A `LuaSocket` until the request that made it is resumed.  `connecting` is the
`async_connect` in progress with the iterator that is bound to its handler. -/
structure Client (Endpoint : Type) where
  socket : Connectivity Endpoint
  resolving : Bool
  connecting : Option (Endpoint × List Endpoint)
  -- the endpoints of all calls of `async_connect`
  attempts : List Endpoint
  enqueued : Nat
deriving DecidableEq

namespace Client

def createSocket : Client Endpoint where
  socket := .closed
  resolving := true
  connecting := none
  attempts := []
  enqueued := 0

/-- `async_connect` opens a socket that is closed. -/
def asyncConnect (client : Client Endpoint) (endpoint : Endpoint) (iterator : List Endpoint) : Client Endpoint :=
  { client with
    socket := .opened
    connecting := some (endpoint, iterator)
    attempts := client.attempts ++ [endpoint] }

def abort (client : Client Endpoint) : Client Endpoint := { client with socket := .closed }

def enqueue (client : Client Endpoint) : Client Endpoint := { client with enqueued := client.enqueued + 1 }

/-- `none` is the dereference of an end iterator. -/
def resolveHandler (client : Client Endpoint) (code : ErrorCode) (iterator : List Endpoint) : Option (Client Endpoint) :=
  match code with
  | .success =>
      match iterator with
      | [] => none
      | endpoint :: iterator => some (client.asyncConnect endpoint iterator)
  | .failed => some client.abort.enqueue
  | .aborted => some client

def connectHandler (client : Client Endpoint) (code : ErrorCode) (iterator : List Endpoint) : Client Endpoint :=
  if code = .success then client.enqueue
  else
    match iterator with
    | endpoint :: iterator => client.abort.asyncConnect endpoint iterator
    | [] => if code = .aborted then client else client.abort.enqueue

end Client

inductive ConnectEvent (Endpoint : Type) where
  | resolved (lookup : Lookup Endpoint)
  | connected (code : ErrorCode)

namespace Client

def step (client : Client Endpoint) : ConnectEvent Endpoint → Option (Client Endpoint)
  | .resolved lookup =>
      if client.resolving then { client with resolving := false }.resolveHandler lookup.code lookup.endpoints
      else none
  | .connected code =>
      match client.connecting with
      | some (endpoint, iterator) =>
          let socket := if code = .success then .connected endpoint else client.socket
          some ({ client with connecting := none, socket := socket }.connectHandler code iterator)
      | none => none

/-- How far the attempts have come after the outcomes `codes`. -/
inductive Stage (endpoints : List Endpoint) : List ErrorCode → Client Endpoint → Prop
  | trying (earlier : List Endpoint) (endpoint : Endpoint) (later : List Endpoint)
      (order : endpoints = earlier ++ endpoint :: later) :
      Stage endpoints (earlier.map fun _ => .failed)
        ⟨.opened, false, some (endpoint, later), earlier ++ [endpoint], 0⟩
  | connected (earlier : List Endpoint) (endpoint : Endpoint) (later : List Endpoint)
      (order : endpoints = earlier ++ endpoint :: later) :
      Stage endpoints ((earlier.map fun _ => .failed) ++ [.success])
        ⟨.connected endpoint, false, none, earlier ++ [endpoint], 1⟩
  | exhausted : Stage endpoints (endpoints.map fun _ => .failed) ⟨.closed, false, none, endpoints, 1⟩

variable {endpoints : List Endpoint} {client next : Client Endpoint} {codes done : List ErrorCode}

theorem Stage.resolved {lookup : Lookup Endpoint} (taken : createSocket.step (.resolved lookup) = some next) :
    Stage lookup.endpoints [] next := by
  cases lookup with
  | failed =>
      cases taken
      exact .exhausted
  | found first rest =>
      cases taken
      exact .trying [] first rest rfl

theorem Stage.step {code : ErrorCode} (stage : Stage endpoints done client) (unaborted : code ≠ .aborted)
    (taken : client.step (.connected code) = some next) : Stage endpoints (done ++ [code]) next := by
  cases stage with
  | trying earlier endpoint later order =>
      cases code with
      | aborted => exact absurd rfl unaborted
      | success =>
          cases taken
          exact .connected earlier endpoint later order
      | failed =>
          have extended : (earlier.map fun _ => ErrorCode.failed) ++ [.failed] =
              (earlier ++ [endpoint]).map fun _ => ErrorCode.failed := by simp
          rw [extended]
          cases later with
          | nil =>
              cases taken
              subst order
              exact .exhausted
          | cons following later =>
              cases taken
              exact .trying (earlier ++ [endpoint]) following later (by simp [order])
  | connected earlier endpoint later order => cases taken
  | exhausted => cases taken

theorem Stage.run (stage : Stage endpoints done client) (unaborted : ErrorCode.aborted ∉ codes)
    (ends : run Client.step client (codes.map .connected) = some next) : Stage endpoints (done ++ codes) next := by
  induction codes generalizing done client with
  | nil =>
      cases ends
      rw [List.append_nil]
      exact stage
  | cons code codes ih =>
      obtain ⟨following, taken, ends⟩ := Option.bind_eq_some_iff.mp ends
      rw [List.mem_cons, not_or] at unaborted
      rw [List.append_cons]
      exact ih (stage.step (Ne.symm unaborted.1) taken) unaborted.2 ends

end Client

/-- The endpoints are tried in the order of the list until one connects.  As long
as one is being tried the request sleeps and every outcome leads on; afterwards it
has been resumed once, with the socket connected to the last endpoint tried or,
after all have failed, closed. -/
theorem socketConnect_in_order (lookup : Lookup Endpoint) (codes : List ErrorCode) (client : Client Endpoint)
    (unaborted : ErrorCode.aborted ∉ codes)
    (reached : run Client.step Client.createSocket (.resolved lookup :: codes.map .connected) = some client) :
    client.attempts <+: lookup.endpoints ∧
    (client.connecting.isSome = true → codes.length < lookup.endpoints.length ∧ client.enqueued = 0 ∧
      (∀ code ∈ codes, code = .failed) ∧ ∀ code, (client.step (.connected code)).isSome = true) ∧
    (client.connecting = none → client.enqueued = 1 ∧
      ((∃ earlier endpoint, client.attempts = earlier ++ [endpoint] ∧ client.socket = .connected endpoint ∧
          codes = (earlier.map fun _ => .failed) ++ [.success]) ∨
        (client.attempts = lookup.endpoints ∧ client.socket = .closed ∧
          codes = lookup.endpoints.map fun _ => .failed))) := by
  obtain ⟨first, taken, ends⟩ := Option.bind_eq_some_iff.mp reached
  have stage := (Client.Stage.resolved taken).run unaborted ends
  rw [List.nil_append] at stage
  cases stage with
  | trying earlier endpoint later order =>
      refine ⟨⟨later, by simp [order]⟩, fun _ => ⟨?_, rfl, ?_, fun _ => rfl⟩, fun idle => by cases idle⟩
      · simp only [order, List.length_map, List.length_append, List.length_cons]
        omega
      · intro code member
        obtain ⟨_, _, rfl⟩ := List.mem_map.mp member
        rfl
  | connected earlier endpoint later order =>
      exact ⟨⟨later, by simp [order]⟩, (fun busy => by cases busy),
        fun _ => ⟨rfl, Or.inl ⟨earlier, endpoint, rfl, rfl, rfl⟩⟩⟩
  | exhausted =>
      exact ⟨List.prefix_rfl, (fun busy => by cases busy), fun _ => ⟨rfl, Or.inr ⟨rfl, rfl, rfl⟩⟩⟩

theorem socketConnect_in_order_second :
    ((run Client.step Client.createSocket
      [.resolved (.found 1 [2, 3]), .connected .failed, .connected .success]).get (by decide)).enqueued = 1 :=
  ((socketConnect_in_order (.found 1 [2, 3]) [.failed, .success] _ (by decide) (Option.some_get _).symm).2.2 rfl).1

end Webapp.Workers
