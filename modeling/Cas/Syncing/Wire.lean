/-
  Cas.Syncing.Wire — requests and replies as bytes on the daemon's socket
  (`send_request` of `syncing/client.rs`, `handle_connection` of
  `syncing/server.rs`).

  A connection is a client in the middle of `send_request`, a task of the
  server in the middle of `handle_connection`, and the bytes that the
  socket holds in each direction.  Every read and every write moves as
  many bytes as it likes; clients die at any point; tasks of all
  connections take turns in any order.  Where `dispatch` returns, the
  task has some response, whatever it is; how the daemon comes to it is
  the subject of `Cas.Syncing.Handlers`.

  Main results:
    • `Conn.Phase.move`, `Conn.Phase.dispatch` — where the call of a
      connection can be, and that its steps keep to that.
    • `send_request_returns` — every call returns.
-/
import Cas.Lib.Framing
import Cas.Lib.Runs
import Cas.Syncing.Postcard
import Cas.Syncing.Proto

namespace Cas.Syncing.Wire

open Cas.Lib

/-! ## §1. Both ends of a connection. -/

/-- What postcard writes the messages with. -/
structure WireFormats where
  request : Codec Request
  response : Codec Response

def WireFormats.postcard : WireFormats where
  request := Postcard.request
  response := Postcard.response Postcard.objectNames

/-- A client between two calls, writing a request, reading the response, after a call that
returned an error, or gone. -/
inductive Client
  | idle
  | sending (rest : Bytes)
  | receiving (r : Reading)
  | failed
  | closed
  deriving DecidableEq

/-- The task that serves one connection: reading a request, writing the response, or returned,
with `Ok` or with an error. -/
inductive Task
  | reading (r : Reading)
  | writing (rest : Bytes)
  | ended (ok : Bool)
  deriving DecidableEq

/-- `write_all` wrote a piece; after the last one the response is next. -/
def Client.afterWrite (rest : Bytes) : Client :=
  if rest = [] then .receiving .start else .sending rest

/-- `write_all` wrote a piece; after the last one the loop starts over. -/
def Task.afterWrite (rest : Bytes) : Task :=
  if rest = [] then .reading .start else .writing rest

structure Conn where
  client : Client
  toServer : Bytes
  task : Task
  toClient : Bytes
  /-- The requests of all calls, oldest first. -/
  sent : List Request
  /-- What the calls that returned `Ok` returned. -/
  received : List Response
  deriving DecidableEq

/-- Just accepted. -/
def Conn.new : Conn :=
  { client := .idle, toServer := [], task := .reading .start, toClient := [], sent := [],
    received := [] }

/-- What one end of a connection does on its own. -/
inductive Move
  /-- `send_request` is called. -/
  | issue (req : Request)
  | clientWrite (n : ℕ)
  | clientRead (n : ℕ)
  /-- The response is decoded and returned. -/
  | clientReturn
  /-- A read finds the end of the stream, a write no reader. -/
  | clientFail
  /-- The client is dropped, or its process dies. -/
  | close
  | taskRead (n : ℕ)
  | taskWrite (n : ℕ)
  /-- A read finds the end of the stream. -/
  | taskEof
  /-- A read or a write fails since the client is gone. -/
  | taskReset
  deriving DecidableEq

section Moves

variable (fmt : WireFormats) (cap : ℕ)

/-- One move of a connection whose socket holds `cap` bytes in each direction; `none` when the
move is not enabled. -/
def Conn.move (c : Conn) : Move → Option Conn
  | .issue req =>
    match c.client with
    | .idle => some { c with client := .sending (frame (fmt.request.encode req)),
                             sent := c.sent ++ [req] }
    | _ => none
  | .clientWrite n =>
    match c.client, c.task with
    -- no reader is left
    | _, .ended _ => none
    | .sending rest, _ =>
      if 0 < n ∧ n ≤ rest.length ∧ c.toServer.length + n ≤ cap then
        some { c with client := .afterWrite (rest.drop n), toServer := c.toServer ++ rest.take n }
      else none
    | _, _ => none
  | .clientRead n =>
    match c.client with
    | .receiving r =>
      if 0 < n ∧ n ≤ r.wants ∧ n ≤ c.toClient.length then
        some { c with client := .receiving (r.push (c.toClient.take n)),
                      toClient := c.toClient.drop n }
      else none
    | _ => none
  | .clientReturn =>
    match c.client with
    | .receiving (.done body) =>
      match fmt.response.decode body with
      | some (response, _) => some { c with client := .idle, received := c.received ++ [response] }
      | none => some { c with client := .failed }
    | _ => none
  | .clientFail =>
    match c.client, c.task with
    | .sending _, .ended _ => some { c with client := .failed }
    | .receiving (.done _), .ended _ => none
    | .receiving _, .ended _ => if c.toClient = [] then some { c with client := .failed } else none
    | _, _ => none
  | .close =>
    match c.client with
    | .closed => none
    -- what the daemon has written is lost, what it has been sent is still there to read
    | _ => some { c with client := .closed, toClient := [] }
  | .taskRead n =>
    match c.task with
    | .reading r =>
      if 0 < n ∧ n ≤ r.wants ∧ n ≤ c.toServer.length then
        some { c with task := .reading (r.push (c.toServer.take n)),
                      toServer := c.toServer.drop n }
      else none
    | _ => none
  | .taskWrite n =>
    match c.task with
    | .writing rest =>
      if 0 < n ∧ n ≤ rest.length ∧ c.toClient.length + n ≤ cap ∧ c.client ≠ .closed then
        some { c with task := .afterWrite (rest.drop n), toClient := c.toClient ++ rest.take n }
      else none
    | _ => none
  | .taskEof =>
    match c.client, c.task with
    -- a connection that ends inside a length ends well, one that ends inside a body does not
    | .closed, .reading (.header _) =>
      if c.toServer = [] then some { c with task := .ended true } else none
    | .closed, .reading (.body _ _) =>
      if c.toServer = [] then some { c with task := .ended false } else none
    | _, _ => none
  | .taskReset =>
    match c.client, c.task with
    | .closed, .reading (.done _) => none
    | .closed, .ended _ => none
    | .closed, _ => some { c with task := .ended false }
    | _, _ => none

end Moves

/-! ## §2. The daemon and its connections. -/

/-- One request answered. -/
structure Call where
  conn : ℕ
  request : Request
  response : Response

structure System where
  conns : FMap ℕ Conn
  /-- Every request answered so far, oldest first. -/
  calls : List Call

inductive Act
  | connect (i : ℕ)
  | move (i : ℕ) (m : Move)
  /-- What the task of `i` has read is no request. -/
  | undecodable (i : ℕ)
  /-- `dispatch` of the request that the task of `i` has read returns `response`. -/
  | dispatch (i : ℕ) (response : Response)

/-- What the task of a connection has read, once it is whole. -/
def Conn.body (c : Conn) : Option Bytes :=
  match c.task with
  | .reading (.done body) => some body
  | _ => none

namespace System

def start : System := ⟨∅, []⟩

section Steps

variable (fmt : WireFormats) (cap : ℕ)

/-- The response is ready to be written. -/
def respond (w : System) (i : ℕ) (c : Conn) (request : Request) (response : Response) : System where
  conns := w.conns.insert i { c with task := .writing (frame (fmt.response.encode response)) }
  calls := w.calls ++ [⟨i, request, response⟩]

/-- `none` when the act is not enabled. -/
def step (w : System) : Act → Option System
  | .connect i =>
    match w.conns.lookup i with
    | some _ => none
    | none => some { w with conns := w.conns.insert i .new }
  | .move i m => (w.conns.lookup i).bind fun c =>
      (c.move fmt cap m).map fun c' => { w with conns := w.conns.insert i c' }
  | .undecodable i => (w.conns.lookup i).bind fun c => c.body.bind fun body =>
      match fmt.request.decode body with
      | some _ => none
      -- the error ends the task; the other connections go on
      | none => some { w with conns := w.conns.insert i { c with task := .ended false } }
  | .dispatch i response => (w.conns.lookup i).bind fun c => c.body.bind fun body =>
      (fmt.request.decode body).map fun r => w.respond fmt i c r.1 response

end Steps

/-- The calls of one connection. -/
def callsOf (w : System) (i : ℕ) : List Call := w.calls.filter fun call => call.conn = i

end System

/-! ## §3. Where a call can be. -/

/-- Between calls; a request under way; its response under way; or the client is gone, with no
request left, with one under way, or with one that was dropped. -/
inductive Conn.Phase (fmt : WireFormats) (calls : List Call) : Conn → Prop
  | idle : Phase fmt calls
      { client := .idle, toServer := [], task := .reading .start, toClient := [],
        sent := calls.map Call.request, received := calls.map Call.response }
  | asking (req : Request) (r : Reading) (up rest : Bytes) (hfit : Fits (fmt.request.encode req))
      (hr : r.Valid) (hrest : rest ≠ [])
      (hbytes : r.taken ++ (up ++ rest) = frame (fmt.request.encode req)) : Phase fmt calls
      { client := .sending rest, toServer := up, task := .reading r, toClient := [],
        sent := calls.map Call.request ++ [req], received := calls.map Call.response }
  | asked (req : Request) (r : Reading) (up : Bytes) (hfit : Fits (fmt.request.encode req))
      (hr : r.Valid)
      (hbytes : r.taken ++ up = frame (fmt.request.encode req)) : Phase fmt calls
      { client := .receiving .start, toServer := up, task := .reading r, toClient := [],
        sent := calls.map Call.request ++ [req], received := calls.map Call.response }
  | answering (received : List Response) (response : Response) (r : Reading) (down rest : Bytes)
      (hr : r.Valid) (hrest : rest ≠ []) (hcalls : calls.map Call.response = received ++ [response])
      (hbytes : r.taken ++ (down ++ rest) = frame (fmt.response.encode response)) : Phase fmt calls
      { client := .receiving r, toServer := [], task := .writing rest, toClient := down,
        sent := calls.map Call.request, received := received }
  | answered (received : List Response) (response : Response) (r : Reading) (down : Bytes)
      (hr : r.Valid) (hcalls : calls.map Call.response = received ++ [response])
      (hbytes : r.taken ++ down = frame (fmt.response.encode response)) : Phase fmt calls
      { client := .receiving r, toServer := [], task := .reading .start, toClient := down,
        sent := calls.map Call.request, received := received }
  | left (received : List Response) (task : Task) (down : Bytes)
      (htask : ∀ r, task = .reading r → r = .start)
      (hcalls : received <+: calls.map Call.response) : Phase fmt calls
      { client := .closed, toServer := [], task := task, toClient := down,
        sent := calls.map Call.request, received := received }
  | leftAsking (req : Request) (r : Reading) (up rest down : Bytes)
      (hfit : Fits (fmt.request.encode req)) (hr : r.Valid)
      (hbytes : r.taken ++ (up ++ rest) = frame (fmt.request.encode req)) : Phase fmt calls
      { client := .closed, toServer := up, task := .reading r, toClient := down,
        sent := calls.map Call.request ++ [req], received := calls.map Call.response }
  | leftDropped (req : Request) (ok : Bool) (up down : Bytes) : Phase fmt calls
      { client := .closed, toServer := up, task := .ended ok, toClient := down,
        sent := calls.map Call.request ++ [req], received := calls.map Call.response }

section Phases

variable {fmt : WireFormats} {cap : ℕ} {calls : List Call} {c c' : Conn}

/-- A request is still under way when part of it has been written. -/
theorem Conn.Phase.afterWrite {req : Request} {r : Reading} {up rest : Bytes}
    (hfit : Fits (fmt.request.encode req)) (hr : r.Valid)
    (hbytes : r.taken ++ (up ++ rest) = frame (fmt.request.encode req)) : Conn.Phase fmt calls
      { client := .afterWrite rest, toServer := up, task := .reading r, toClient := [],
        sent := calls.map Call.request ++ [req], received := calls.map Call.response } := by
  unfold Client.afterWrite
  by_cases hrest : rest = []
  · rw [if_pos hrest]
    subst hrest
    rw [List.append_nil] at hbytes
    exact .asked req r up hfit hr hbytes
  · rw [if_neg hrest]
    exact .asking req r up rest hfit hr hrest hbytes

/-- A response is still under way when part of it has been written. -/
theorem Conn.Phase.afterTaskWrite {received : List Response} {response : Response} {r : Reading}
    {down rest : Bytes} (hr : r.Valid) (hcalls : calls.map Call.response = received ++ [response])
    (hbytes : r.taken ++ (down ++ rest) = frame (fmt.response.encode response)) :
    Conn.Phase fmt calls
      { client := .receiving r, toServer := [], task := .afterWrite rest, toClient := down,
        sent := calls.map Call.request, received := received } := by
  unfold Task.afterWrite
  by_cases hrest : rest = []
  · rw [if_pos hrest]
    subst hrest
    rw [List.append_nil] at hbytes
    exact .answered received response r down hr hcalls hbytes
  · rw [if_neg hrest]
    exact .answering received response r down rest hr hrest hcalls hbytes

/-- Bytes that one side writes are bytes that the other will read. -/
theorem written_pipe {taken pipe rest all : Bytes} (n : ℕ) (h : taken ++ (pipe ++ rest) = all) :
    taken ++ (pipe ++ rest.take n ++ rest.drop n) = all := by
  rw [List.append_assoc pipe, List.take_append_drop, h]

/-- Bytes that one side reads are no longer in the pipe. -/
theorem read_pipe {r : Reading} {pipe rest all : Bytes} {n : ℕ} (hr : r.Valid) (hn : n ≤ r.wants)
    (h : r.taken ++ (pipe ++ rest) = all) :
    (r.push (pipe.take n)).taken ++ (pipe.drop n ++ rest) = all ∧ (r.push (pipe.take n)).Valid := by
  have hlen : (pipe.take n).length ≤ r.wants := (List.length_take_le n pipe).trans hn
  obtain ⟨htaken, hvalid⟩ := Reading.taken_push hr hlen
  refine ⟨?_, hvalid⟩
  rw [htaken, List.append_assoc, ← List.append_assoc (pipe.take n), List.take_append_drop, h]

theorem Conn.Phase.clientWrite (h : c.Phase fmt calls) {n : ℕ}
    (hmove : c.move fmt cap (.clientWrite n) = some c') : c'.Phase fmt calls := by
  cases h with
  | asking req r up rest hfit hr hrest hbytes =>
    obtain ⟨-, he⟩ := Option.ite_none_right_eq_some.mp hmove
    cases he
    exact .afterWrite hfit hr (written_pipe n hbytes)
  | left received task down htask hcalls => cases task <;> cases hmove
  | _ => cases hmove

theorem Conn.Phase.clientRead (h : c.Phase fmt calls) {n : ℕ}
    (hmove : c.move fmt cap (.clientRead n) = some c') : c'.Phase fmt calls := by
  cases h with
  | asked req r up hfit hr hbytes =>
    -- nothing has come back yet
    obtain ⟨⟨hpos, -, hle⟩, -⟩ := Option.ite_none_right_eq_some.mp hmove
    exact absurd (hpos.trans_le hle) (lt_irrefl 0)
  | answering received response r down rest hr hrest hcalls hbytes =>
    obtain ⟨⟨-, hle, -⟩, he⟩ := Option.ite_none_right_eq_some.mp hmove
    cases he
    obtain ⟨htaken, hvalid⟩ := read_pipe hr hle hbytes
    exact .answering received response _ _ rest hvalid hrest hcalls htaken
  | answered received response r down hr hcalls hbytes =>
    obtain ⟨⟨-, hle, -⟩, he⟩ := Option.ite_none_right_eq_some.mp hmove
    cases he
    rw [← List.append_nil down] at hbytes
    obtain ⟨htaken, hvalid⟩ := read_pipe hr hle hbytes
    rw [List.append_nil] at htaken
    exact .answered received response _ _ hvalid hcalls htaken
  | _ => cases hmove

/-- The response under way is that of a call. -/
theorem fits_last {received : List Response} {response : Response}
    (hfits : ∀ call ∈ calls, Fits (fmt.response.encode call.response))
    (hcalls : calls.map Call.response = received ++ [response]) :
    Fits (fmt.response.encode response) := by
  have hmem : response ∈ calls.map Call.response := by
    rw [hcalls]
    exact List.mem_append_right _ (List.mem_singleton_self response)
  obtain ⟨call, hcall, rfl⟩ := List.mem_map.mp hmem
  exact hfits call hcall

theorem Conn.Phase.clientReturn (h : c.Phase fmt calls)
    (hfits : ∀ call ∈ calls, Fits (fmt.response.encode call.response))
    (hmove : c.move fmt cap .clientReturn = some c') : c'.Phase fmt calls := by
  cases h with
  | answering received response r down rest hr hrest hcalls hbytes =>
    cases r with
    | done body =>
      -- a whole frame has come, so nothing is left to write
      obtain ⟨-, hnil⟩ := Reading.done_of_taken hr (fits_last hfits hcalls) hbytes
      exact absurd (List.append_eq_nil_iff.mp hnil).2 hrest
    | _ => cases hmove
  | answered received response r down hr hcalls hbytes =>
    cases r with
    | done body =>
      obtain ⟨rfl, rfl⟩ := Reading.done_of_taken hr (fits_last hfits hcalls) hbytes
      have hdecode := fmt.response.decode_encode response
      simp only [Conn.move, hdecode, Option.some.injEq] at hmove
      rw [← hmove, ← hcalls]
      exact .idle
    | _ => cases hmove
  | _ => cases hmove

/-- No call of a client that is there returns an error. -/
theorem Conn.Phase.not_clientFail (h : c.Phase fmt calls) : c.move fmt cap .clientFail = none := by
  cases h with
  | answering received response r => cases r <;> rfl
  | answered received response r => cases r <;> rfl
  | _ => rfl

theorem Conn.Phase.close (h : c.Phase fmt calls) (hmove : c.move fmt cap .close = some c') :
    c'.Phase fmt calls := by
  have hstart : ∀ r, Task.reading .start = .reading r → r = .start := by
    intro r he
    exact (Task.reading.inj he).symm
  cases h with
  | idle =>
    cases hmove
    exact .left _ _ _ hstart List.prefix_rfl
  | asking req r up rest hfit hr hrest hbytes =>
    cases hmove
    exact .leftAsking req r up rest [] hfit hr hbytes
  | asked req r up hfit hr hbytes =>
    cases hmove
    rw [← List.append_nil up] at hbytes
    exact .leftAsking req r up [] [] hfit hr hbytes
  | answering received response r down rest hr hrest hcalls hbytes =>
    cases hmove
    exact .left received _ [] (fun r he => by cases he) (hcalls ▸ List.prefix_append _ _)
  | answered received response r down hr hcalls hbytes =>
    cases hmove
    exact .left received _ [] hstart (hcalls ▸ List.prefix_append _ _)
  | _ => cases hmove

theorem Conn.Phase.taskRead (h : c.Phase fmt calls) {n : ℕ}
    (hmove : c.move fmt cap (.taskRead n) = some c') : c'.Phase fmt calls := by
  -- nothing has been asked, so nothing can be read
  have hempty : ∀ {c₁ c₂ : Conn} {r : Reading},
      (if 0 < n ∧ n ≤ r.wants ∧ n ≤ ([] : Bytes).length then some c₁ else none) = some c₂ → False := by
    intro c₁ c₂ r h
    obtain ⟨⟨hpos, -, hle⟩, -⟩ := Option.ite_none_right_eq_some.mp h
    exact absurd (hpos.trans_le hle) (lt_irrefl 0)
  cases h with
  | idle => exact (hempty hmove).elim
  | asking req r up rest hfit hr hrest hbytes =>
    obtain ⟨⟨-, hle, -⟩, he⟩ := Option.ite_none_right_eq_some.mp hmove
    cases he
    obtain ⟨htaken, hvalid⟩ := read_pipe hr hle hbytes
    exact .asking req _ _ rest hfit hvalid hrest htaken
  | asked req r up hfit hr hbytes =>
    obtain ⟨⟨-, hle, -⟩, he⟩ := Option.ite_none_right_eq_some.mp hmove
    cases he
    rw [← List.append_nil up] at hbytes
    obtain ⟨htaken, hvalid⟩ := read_pipe hr hle hbytes
    rw [List.append_nil] at htaken
    exact .asked req _ _ hfit hvalid htaken
  | answered received response r down hr hcalls hbytes => exact (hempty hmove).elim
  | left received task down htask hcalls =>
    cases task with
    | reading r => exact (hempty hmove).elim
    | _ => cases hmove
  | leftAsking req r up rest down hfit hr hbytes =>
    obtain ⟨⟨-, hle, -⟩, he⟩ := Option.ite_none_right_eq_some.mp hmove
    cases he
    obtain ⟨htaken, hvalid⟩ := read_pipe hr hle hbytes
    exact .leftAsking req _ _ rest down hfit hvalid htaken
  | _ => cases hmove

theorem Conn.Phase.taskWrite (h : c.Phase fmt calls) {n : ℕ}
    (hmove : c.move fmt cap (.taskWrite n) = some c') : c'.Phase fmt calls := by
  cases h with
  | answering received response r down rest hr hrest hcalls hbytes =>
    obtain ⟨-, he⟩ := Option.ite_none_right_eq_some.mp hmove
    cases he
    exact .afterTaskWrite hr hcalls (written_pipe n hbytes)
  | left received task down htask hcalls =>
    cases task with
    | writing rest =>
      obtain ⟨⟨-, -, -, hopen⟩, -⟩ := Option.ite_none_right_eq_some.mp hmove
      exact absurd rfl hopen
    | _ => cases hmove
  | _ => cases hmove

/-- The task of a client that is gone ends. -/
theorem Conn.Phase.ended (h : c.Phase fmt calls) (hclosed : c.client = .closed) (ok : Bool) :
    Conn.Phase fmt calls { c with task := .ended ok } := by
  have hended : ∀ r, Task.ended ok = .reading r → r = .start := by
    intro r he
    cases he
  cases h with
  | left received task down htask hcalls => exact .left received _ down hended hcalls
  | leftAsking req r up rest down hfit hr hbytes => exact .leftDropped req ok up down
  | leftDropped req ok' up down => exact .leftDropped req ok up down
  | _ => cases hclosed

/-- A task that ends before its client closes it does so at the end of the stream. -/
theorem Conn.ends_of_move (hmove : c.move fmt cap .taskEof = some c' ∨
    c.move fmt cap .taskReset = some c') :
    c.client = .closed ∧ ∃ ok, c' = { c with task := .ended ok } := by
  obtain ⟨client, up, task, down, sent, received⟩ := c
  rcases hmove with h | h
  · cases client with
    | closed =>
      cases task with
      | reading r =>
        cases r with
        | header got =>
          obtain ⟨-, he⟩ := Option.ite_none_right_eq_some.mp h
          exact ⟨rfl, true, (Option.some.inj he).symm⟩
        | body len got =>
          obtain ⟨-, he⟩ := Option.ite_none_right_eq_some.mp h
          exact ⟨rfl, false, (Option.some.inj he).symm⟩
        | done body => cases h
      | _ => cases h
    | _ => cases h
  · cases client with
    | closed =>
      cases task with
      | reading r =>
        cases r with
        | done body => cases h
        | _ => exact ⟨rfl, false, (Option.some.inj h).symm⟩
      | writing rest => exact ⟨rfl, false, (Option.some.inj h).symm⟩
      | ended ok => cases h
    | _ => cases h

/-- A move takes back no request, and none goes on with a request that has been read. -/
theorem Conn.keeps_move {m : Move} (h : c.move fmt cap m = some c') : c.sent <+: c'.sent ∧
    ∀ body, c.task = .reading (.done body) → c'.task = c.task := by
  obtain ⟨client, up, task, down, sent, received⟩ := c
  cases m with
  | issue req =>
    cases client with
    | idle =>
      cases h
      exact ⟨List.prefix_append _ _, fun _ _ => rfl⟩
    | _ => cases h
  | clientWrite n =>
    cases client with
    | sending rest =>
      cases task with
      | ended ok => cases h
      | _ =>
        obtain ⟨-, he⟩ := Option.ite_none_right_eq_some.mp h
        cases he
        exact ⟨List.prefix_rfl, fun _ _ => rfl⟩
    | _ => cases task <;> cases h
  | clientRead n =>
    cases client with
    | receiving r =>
      obtain ⟨-, he⟩ := Option.ite_none_right_eq_some.mp h
      cases he
      exact ⟨List.prefix_rfl, fun _ _ => rfl⟩
    | _ => cases h
  | clientReturn =>
    cases client with
    | receiving r =>
      cases r with
      | done body =>
        cases hdecode : fmt.response.decode body with
        | none =>
          simp only [Conn.move, hdecode, Option.some.injEq] at h
          subst h
          exact ⟨List.prefix_rfl, fun _ _ => rfl⟩
        | some x =>
          simp only [Conn.move, hdecode, Option.some.injEq] at h
          subst h
          exact ⟨List.prefix_rfl, fun _ _ => rfl⟩
      | _ => cases h
    | _ => cases h
  | clientFail =>
    -- only when the task has ended
    cases client with
    | sending rest =>
      cases task with
      | ended ok =>
        cases h
        exact ⟨List.prefix_rfl, fun _ _ => rfl⟩
      | _ => cases h
    | receiving r =>
      cases task with
      | ended ok =>
        cases r with
        | done body => cases h
        | _ =>
          obtain ⟨-, he⟩ := Option.ite_none_right_eq_some.mp h
          cases he
          exact ⟨List.prefix_rfl, fun _ _ => rfl⟩
      | _ => cases r <;> cases h
    | _ => cases h
  | close =>
    cases client with
    | closed => cases h
    | _ =>
      cases h
      exact ⟨List.prefix_rfl, fun _ _ => rfl⟩
  | taskRead n =>
    cases task with
    | reading r =>
      obtain ⟨⟨hpos, hle, -⟩, he⟩ := Option.ite_none_right_eq_some.mp h
      cases he
      refine ⟨List.prefix_rfl, fun body hbody => ?_⟩
      -- a frame that is whole wants no more bytes
      cases hbody
      exact absurd (hpos.trans_le hle) (lt_irrefl 0)
    | _ => cases h
  | taskWrite n =>
    cases task with
    | writing rest =>
      obtain ⟨-, he⟩ := Option.ite_none_right_eq_some.mp h
      cases he
      exact ⟨List.prefix_rfl, fun body hbody => by cases hbody⟩
    | _ => cases h
  | taskEof =>
    obtain ⟨-, ok, rfl⟩ := Conn.ends_of_move (Or.inl h)
    refine ⟨List.prefix_rfl, fun body hbody => ?_⟩
    -- the task is not reading while the request is handled, so the end is not noticed
    cases hbody
    cases client <;> cases h
  | taskReset =>
    obtain ⟨-, ok, rfl⟩ := Conn.ends_of_move (Or.inr h)
    refine ⟨List.prefix_rfl, fun body hbody => ?_⟩
    cases hbody
    cases client <;> cases h

/-- A request that is issued is short enough for its length to be written. -/
def Move.FitsIn (fmt : WireFormats) : Move → Prop
  | .issue req => Fits (fmt.request.encode req)
  | _ => True

instance (fmt : WireFormats) : ∀ m : Move, Decidable (m.FitsIn fmt)
  | .issue _ => inferInstanceAs (Decidable (Fits _))
  | .clientWrite _ | .clientRead _ | .clientReturn | .clientFail | .close | .taskRead _
  | .taskWrite _ | .taskEof | .taskReset => isTrue trivial

/-- **One move of a connection.** -/
theorem Conn.Phase.move (h : c.Phase fmt calls) {m : Move}
    (hissue : m.FitsIn fmt)
    (hfits : ∀ call ∈ calls, Fits (fmt.response.encode call.response))
    (hmove : c.move fmt cap m = some c') : c'.Phase fmt calls := by
  cases m with
  | issue req =>
    cases h with
    | idle =>
      cases hmove
      exact .asking req .start [] _ hissue Reading.valid_start (frame_ne_nil _) rfl
    | _ => cases hmove
  | clientWrite n => exact h.clientWrite hmove
  | clientRead n => exact h.clientRead hmove
  | clientReturn => exact h.clientReturn hfits hmove
  | clientFail =>
    rw [h.not_clientFail] at hmove
    cases hmove
  | close => exact h.close hmove
  | taskRead n => exact h.taskRead hmove
  | taskWrite n => exact h.taskWrite hmove
  | taskEof =>
    obtain ⟨hclosed, ok, rfl⟩ := Conn.ends_of_move (Or.inl hmove)
    exact h.ended hclosed ok
  | taskReset =>
    obtain ⟨hclosed, ok, rfl⟩ := Conn.ends_of_move (Or.inr hmove)
    exact h.ended hclosed ok

/-- **A request that has been read**: it is the one under way, and it is answered. -/
theorem Conn.Phase.dispatch (h : c.Phase fmt calls) {body : Bytes}
    (htask : c.task = .reading (.done body)) :
    ∃ req, fmt.request.decode body = some (req, []) ∧ ∀ call : Call, call.request = req →
      Conn.Phase fmt (calls ++ [call])
        { c with task := .writing (frame (fmt.response.encode call.response)) } := by
  have hmap : ∀ {β : Type} (f : Call → β) (call : Call),
      calls.map f ++ [f call] = (calls ++ [call]).map f := by
    intro β f call
    rw [List.map_append]
    rfl
  cases h with
  | idle => cases htask
  | asking req r up rest hfit hr hrest hbytes =>
    cases htask
    obtain ⟨-, hnil⟩ := Reading.done_of_taken hr hfit hbytes
    exact absurd (List.append_eq_nil_iff.mp hnil).2 hrest
  | asked req r up hfit hr hbytes =>
    cases htask
    obtain ⟨rfl, rfl⟩ := Reading.done_of_taken hr hfit hbytes
    refine ⟨req, fmt.request.decode_encode req, ?_⟩
    rintro call rfl
    dsimp only
    rw [hmap Call.request call]
    exact .answering _ call.response .start [] _ Reading.valid_start (frame_ne_nil _)
      (hmap Call.response call).symm rfl
  | answering received response r down rest hr hrest hcalls hbytes => cases htask
  | answered received response r down hr hcalls hbytes => cases htask
  | left received task down hstart hcalls => cases hstart _ htask
  | leftAsking req r up rest down hfit hr hbytes =>
    cases htask
    obtain ⟨rfl, hnil⟩ := Reading.done_of_taken hr hfit hbytes
    obtain ⟨rfl, -⟩ := List.append_eq_nil_iff.mp hnil
    refine ⟨req, fmt.request.decode_encode req, ?_⟩
    rintro call rfl
    dsimp only
    rw [hmap Call.request call]
    refine .left _ _ down (fun r he => by cases he) ?_
    rw [← hmap Call.response call]
    exact List.prefix_append _ _
  | leftDropped req ok up down => cases htask

end Phases

/-! ## §4. Runs of the whole system. -/

/-- A request that is issued is short enough for its length to be written. -/
def Act.FitsIn (fmt : WireFormats) : Act → Prop
  | .move _ m => m.FitsIn fmt
  | _ => True

instance (fmt : WireFormats) : ∀ act : Act, Decidable (act.FitsIn fmt)
  | .move _ m => inferInstanceAs (Decidable (m.FitsIn fmt))
  | .connect _ | .undecodable _ | .dispatch _ _ => isTrue trivial

namespace System

/-- Each connection is in a phase of its calls. -/
structure Served (fmt : WireFormats) (w : System) : Prop where
  phases : ∀ i c, w.conns.lookup i = some c → c.Phase fmt (w.callsOf i)
  unknown : ∀ i, w.conns.lookup i = none → w.callsOf i = []

/-- The responses are short enough for their length to be written. -/
def AnswersFit (fmt : WireFormats) (w : System) : Prop :=
  ∀ call ∈ w.calls, Fits (fmt.response.encode call.response)

instance (fmt : WireFormats) (w : System) : Decidable (w.AnswersFit fmt) :=
  inferInstanceAs (Decidable (∀ call ∈ w.calls, _))

section Run

variable {fmt : WireFormats} {cap : ℕ} {w w' : System} {act : Act}

theorem served_start : start.Served fmt := by
  have hnone : ∀ i, start.conns.lookup i = none := fun i => Finmap.lookup_empty i
  refine ⟨fun i c hc => ?_, fun i _ => rfl⟩
  rw [hnone] at hc
  cases hc

theorem body_eq_some {c : Conn} {body : Bytes} :
    c.body = some body ↔ c.task = .reading (.done body) := by
  unfold Conn.body
  cases c.task with
  | reading r =>
    cases r with
    | done got =>
      constructor
      · intro h
        rw [Option.some.inj h]
      · intro h
        cases h
        rfl
    | _ => exact iff_of_false nofun nofun
  | _ => exact iff_of_false nofun nofun

/-- Everything that one step can be. -/
theorem step_cases (h : step fmt cap w act = some w') :
    (∃ i, act = .connect i ∧ w.conns.lookup i = none ∧
      w' = { w with conns := w.conns.insert i .new }) ∨
    (∃ i m c c', act = .move i m ∧ w.conns.lookup i = some c ∧ c.move fmt cap m = some c' ∧
      w' = { w with conns := w.conns.insert i c' }) ∨
    (∃ i c body, act = .undecodable i ∧ w.conns.lookup i = some c ∧
      c.task = .reading (.done body) ∧ fmt.request.decode body = none ∧
      w' = { w with conns := w.conns.insert i { c with task := .ended false } }) ∨
    (∃ i response c body req rest, act = .dispatch i response ∧ w.conns.lookup i = some c ∧
      c.task = .reading (.done body) ∧ fmt.request.decode body = some (req, rest) ∧
      w' = w.respond fmt i c req response) := by
  cases act with
  | connect i =>
    unfold step at h
    cases hi : w.conns.lookup i with
    | some c => simp only [hi] at h; cases h
    | none =>
      simp only [hi] at h
      cases h
      exact Or.inl ⟨i, rfl, hi, rfl⟩
  | move i m =>
    obtain ⟨c, hi, h⟩ := Option.bind_eq_some_iff.mp h
    obtain ⟨c', hc', rfl⟩ := Option.map_eq_some_iff.mp h
    exact Or.inr (Or.inl ⟨i, m, c, c', rfl, hi, hc', rfl⟩)
  | undecodable i =>
    obtain ⟨c, hi, h⟩ := Option.bind_eq_some_iff.mp h
    obtain ⟨body, hbody, h⟩ := Option.bind_eq_some_iff.mp h
    cases hdecode : fmt.request.decode body with
    | some r => rw [hdecode] at h; cases h
    | none =>
      rw [hdecode] at h
      cases h
      exact Or.inr (Or.inr (Or.inl ⟨i, c, body, rfl, hi, body_eq_some.mp hbody, hdecode, rfl⟩))
  | dispatch i response =>
    obtain ⟨c, hi, h⟩ := Option.bind_eq_some_iff.mp h
    obtain ⟨body, hbody, h⟩ := Option.bind_eq_some_iff.mp h
    obtain ⟨⟨req, rest⟩, hdecode, rfl⟩ := Option.map_eq_some_iff.mp h
    exact Or.inr (Or.inr (Or.inr
      ⟨i, response, c, body, req, rest, rfl, hi, body_eq_some.mp hbody, hdecode, rfl⟩))

theorem callsOf_respond (i : ℕ) (c : Conn) (req : Request) (response : Response) (j : ℕ) :
    (w.respond fmt i c req response).callsOf j
      = w.callsOf j ++ if i = j then [⟨i, req, response⟩] else [] := by
  show (w.calls ++ [_]).filter _ = _
  unfold callsOf
  rw [List.filter_append]
  by_cases h : i = j <;> simp [h]

/-- One connection changes, and no request is answered. -/
theorem Served.insert {i : ℕ} {c : Conn} (h : w.Served fmt)
    (hphase : c.Phase fmt (w.callsOf i)) :
    Served fmt { w with conns := w.conns.insert i c } := by
  refine ⟨fun j d hd => ?_, fun j hj => ?_⟩
  · rw [lookup_insert_ite] at hd
    split at hd
    · rename_i hji
      cases hd
      rw [hji]
      exact hphase
    · exact h.phases j d hd
  · rw [lookup_insert_ite] at hj
    split at hj
    · cases hj
    · exact h.unknown j hj

/-- One step of the system. -/
theorem Served.step (h : w.Served fmt)
    (hissue : act.FitsIn fmt) (hfits : w.AnswersFit fmt)
    (hstep : w.step fmt cap act = some w') : w'.Served fmt := by
  rcases step_cases hstep with ⟨i, rfl, hi, rfl⟩ | ⟨i, m, c, c', rfl, hi, hmove, rfl⟩
    | ⟨i, c, body, rfl, hi, htask, hnone, rfl⟩
    | ⟨i, response, c, body, req, rest, rfl, hi, htask, hdecode, rfl⟩
  · apply h.insert
    rw [h.unknown i hi]
    exact .idle
  · exact h.insert ((h.phases i c hi).move hissue
      (fun call hcall => hfits call (List.mem_of_mem_filter hcall)) hmove)
  · -- what a client has sent decodes
    obtain ⟨req, hdecode, -⟩ := (h.phases i c hi).dispatch htask
    rw [hnone] at hdecode
    cases hdecode
  · -- the only act that adds a call
    obtain ⟨req', hdecode', hphase⟩ := (h.phases i c hi).dispatch htask
    obtain rfl : req = req' := congrArg Prod.fst (Option.some.inj (hdecode.symm.trans hdecode'))
    refine ⟨fun j d hd => ?_, fun j hj => ?_⟩
    · rw [callsOf_respond]
      unfold respond at hd
      rw [lookup_insert_ite] at hd
      split at hd
      · rename_i hji
        cases hd
        rw [if_pos hji.symm, hji]
        exact hphase ⟨i, req, response⟩ rfl
      · rename_i hji
        rw [if_neg fun he => hji he.symm, List.append_nil]
        exact h.phases j d hd
    · unfold respond at hj
      rw [lookup_insert_ite] at hj
      split at hj
      · cases hj
      · rename_i hji
        rw [callsOf_respond, if_neg fun he => hji he.symm, List.append_nil]
        exact h.unknown j hj

/-- What an act that answers no request does to the connections. -/
theorem conn_of_step (h : step fmt cap w act = some w')
    (hact : ∀ i response, act ≠ .dispatch i response) : w'.calls = w.calls ∧
      ∀ i c, w.conns.lookup i = some c → ∃ c', w'.conns.lookup i = some c' ∧ c.sent <+: c'.sent ∧
        ∀ body req rest, c.task = .reading (.done body) →
          fmt.request.decode body = some (req, rest) → c'.task = c.task := by
  -- a change of the connection `j`
  have hone : ∀ {j : ℕ} {d : Conn}, (∀ c, w.conns.lookup j = some c → c.sent <+: d.sent ∧
      ∀ body req rest, c.task = .reading (.done body) →
        fmt.request.decode body = some (req, rest) → d.task = c.task) →
      ∀ i c, w.conns.lookup i = some c → ∃ c', (w.conns.insert j d).lookup i = some c' ∧
        c.sent <+: c'.sent ∧ ∀ body req rest, c.task = .reading (.done body) →
          fmt.request.decode body = some (req, rest) → c'.task = c.task := by
    intro j d hd i c hi
    rw [lookup_insert_ite]
    by_cases hij : i = j
    · rw [if_pos hij]
      exact ⟨d, rfl, hd c (hij ▸ hi)⟩
    · rw [if_neg hij]
      exact ⟨c, hi, List.prefix_rfl, fun _ _ _ _ _ => rfl⟩
  rcases step_cases h with ⟨j, rfl, hj, rfl⟩ | ⟨j, m, d, d', rfl, hj, hmove, rfl⟩
    | ⟨j, d, body, rfl, hj, htask, hnone, rfl⟩ | ⟨j, response, d, body, req, rest, rfl, -⟩
  · refine ⟨rfl, hone fun c hc => ?_⟩
    rw [hj] at hc
    cases hc
  · refine ⟨rfl, hone fun c hc => ?_⟩
    obtain rfl : d = c := Option.some.inj (hj.symm.trans hc)
    obtain ⟨hsent, hsame⟩ := Conn.keeps_move hmove
    exact ⟨hsent, fun body _ _ hbody _ => hsame body hbody⟩
  · refine ⟨rfl, hone fun c hc => ?_⟩
    obtain rfl : d = c := Option.some.inj (hj.symm.trans hc)
    refine ⟨List.prefix_rfl, fun body' req rest hbody hdecode => ?_⟩
    obtain rfl : body = body' := Reading.done.inj (Task.reading.inj (htask.symm.trans hbody))
    rw [hnone] at hdecode
    cases hdecode
  · exact absurd rfl (hact j response)

/-- No call is forgotten. -/
theorem calls_prefix_of_step (h : step fmt cap w act = some w') : w.calls <+: w'.calls := by
  rcases step_cases h with ⟨i, -, -, rfl⟩ | ⟨i, m, c, c', -, -, -, rfl⟩
    | ⟨i, c, body, -, -, -, -, rfl⟩ | ⟨i, response, c, body, req, rest, -, -, -, -, rfl⟩
  · exact List.prefix_rfl
  · exact List.prefix_rfl
  · exact List.prefix_rfl
  · exact List.prefix_append _ _

theorem calls_prefix_of_run {acts : List Act} (h : run (step fmt cap) w acts = some w') :
    w.calls <+: w'.calls :=
  run_invariant (I := fun u => w.calls <+: u.calls)
    (fun _ _ _ hu hstep => hu.trans (calls_prefix_of_step hstep)) List.prefix_rfl h

/-- A run of the system. -/
theorem Served.run {acts : List Act} (h : w.Served fmt)
    (hissue : ∀ act ∈ acts, act.FitsIn fmt)
    (hrun : run (System.step fmt cap) w acts = some w') (hfits : w'.AnswersFit fmt) :
    w'.Served fmt := by
  induction acts generalizing w with
  | nil =>
    cases hrun
    exact h
  | cons act acts ih =>
    rw [run_cons] at hrun
    obtain ⟨u, hu, hrest⟩ := Option.bind_eq_some_iff.mp hrun
    -- `AnswersFit` of the last state covers the earlier ones
    have hgrew : w.calls <+: w'.calls :=
      (calls_prefix_of_step hu).trans (calls_prefix_of_run hrest)
    have hserved : u.Served fmt := h.step (hissue act List.mem_cons_self)
      (fun call hcall => hfits call (hgrew.subset hcall)) hu
    exact ih hserved (fun a ha => hissue a (List.mem_cons_of_mem _ ha)) hrest

end Run

end System

/-- What the calls of a connection have to do with what its client sent and received. -/
structure Conn.Answered (c : Conn) (calls : List Call) : Prop where
  /-- Answered in the order sent, none twice, none that was not sent. -/
  requests : calls.map Call.request <+: c.sent
  /-- The `k`th call returned the answer to the `k`th request. -/
  received : c.received <+: calls.map Call.response
  idle : c.client = .idle →
    c.sent = calls.map Call.request ∧ c.received = calls.map Call.response
  notFailed : c.client ≠ .failed
  ended : ∀ ok, c.task = .ended ok → c.client = .closed

theorem Conn.Phase.answered_calls {fmt : WireFormats} {calls : List Call} {c : Conn}
    (h : c.Phase fmt calls) : c.Answered calls := by
  have hnone : ∀ {x : Client} {r : Reading} {ok : Bool}, Task.reading r = .ended ok → x = .closed :=
    fun he => by cases he
  cases h with
  | idle => exact ⟨List.prefix_rfl, List.prefix_rfl, fun _ => ⟨rfl, rfl⟩, Client.noConfusion,
      fun ok he => hnone he⟩
  | asking => exact ⟨List.prefix_append _ _, List.prefix_rfl, Client.noConfusion,
      Client.noConfusion, fun ok he => hnone he⟩
  | asked => exact ⟨List.prefix_append _ _, List.prefix_rfl, Client.noConfusion,
      Client.noConfusion, fun ok he => hnone he⟩
  | answering received response r down rest hr hrest hcalls hbytes =>
    exact ⟨List.prefix_rfl, hcalls ▸ List.prefix_append _ _, Client.noConfusion,
      Client.noConfusion, fun ok he => by cases he⟩
  | answered received response r down hr hcalls hbytes =>
    exact ⟨List.prefix_rfl, hcalls ▸ List.prefix_append _ _, Client.noConfusion,
      Client.noConfusion, fun ok he => hnone he⟩
  | left received task down htask hcalls =>
    exact ⟨List.prefix_rfl, hcalls, Client.noConfusion, Client.noConfusion, fun _ _ => rfl⟩
  | leftAsking => exact ⟨List.prefix_append _ _, List.prefix_rfl, Client.noConfusion,
      Client.noConfusion, fun _ _ => rfl⟩
  | leftDropped => exact ⟨List.prefix_append _ _, List.prefix_rfl, Client.noConfusion,
      Client.noConfusion, fun _ _ => rfl⟩

/-- Two clients; the second dies in the middle of its request. -/
def oneDies : List Act :=
  [.connect 0, .connect 1, .move 0 (.issue .flush), .move 1 (.issue (.deleteWhiteout [])),
    .move 0 (.clientWrite 3), .move 1 (.clientWrite 3), .move 0 (.taskRead 3),
    .move 0 (.clientWrite 2), .move 1 (.taskRead 1), .move 1 .close, .move 0 (.taskRead 1),
    .move 0 (.taskRead 1), .dispatch 0 .flush, .move 0 (.taskWrite 3), .move 0 (.clientRead 2),
    .move 1 (.taskRead 2), .move 1 .taskEof, .move 0 (.taskWrite 2), .move 0 (.clientRead 2),
    .move 0 (.clientRead 1), .move 0 .clientReturn]

/-! ## §5. Every call returns. -/

/-- What is still to be written of a request. -/
def Client.unsent : Client → Bytes
  | .sending rest => rest
  | _ => []

/-- What is still to be written of a response. -/
def Task.unwritten : Task → Bytes
  | .writing rest => rest
  | _ => []

/-- The steps that the call under way still needs, at most, once `n` requests were answered: a
byte that is to be written counts twice, a byte that is to be read once. -/
def Conn.effort (c : Conn) (n : ℕ) : ℕ :=
  2 * c.client.unsent.length + c.toServer.length + 2 * c.task.unwritten.length
    + c.toClient.length + (c.sent.length - n) + (c.sent.length - c.received.length)

/-- Bytes of the responses. -/
def replyBytes (fmt : WireFormats) (calls : List Call) : ℕ :=
  (calls.map fun call => (frame (fmt.response.encode call.response)).length).sum

/-- Neither a new call nor the end of the client. -/
def Move.Continues : Move → Prop
  | .issue _ => False
  | .close => False
  | _ => True

instance : ∀ m : Move, Decidable m.Continues
  | .issue _ | .close => isFalse id
  | .clientWrite _ | .clientRead _ | .clientReturn | .clientFail | .taskRead _ | .taskWrite _
  | .taskEof | .taskReset => isTrue trivial

section Effort

variable {fmt : WireFormats} {cap : ℕ} {calls : List Call} {c c' : Conn}

@[simp] theorem unsent_afterWrite (rest : Bytes) : (Client.afterWrite rest).unsent = rest := by
  unfold Client.afterWrite
  by_cases h : rest = []
  · rw [if_pos h, h]
    rfl
  · rw [if_neg h]
    rfl

@[simp] theorem unwritten_afterWrite (rest : Bytes) : (Task.afterWrite rest).unwritten = rest := by
  unfold Task.afterWrite
  by_cases h : rest = []
  · rw [if_pos h, h]
    rfl
  · rw [if_neg h]
    rfl

theorem afterWrite_ne_closed (rest : Bytes) : Client.afterWrite rest ≠ .closed := by
  unfold Client.afterWrite
  split <;> exact Client.noConfusion

/-- While a client waits, a response is missing. -/
theorem Conn.Phase.received_lt (h : c.Phase fmt calls) {r : Reading}
    (hclient : c.client = .receiving r) : c.received.length < c.sent.length := by
  have hlen : ∀ {received : List Response} {response : Response},
      calls.map Call.response = received ++ [response] → calls.length = received.length + 1 := by
    intro received response hcalls
    simpa using congrArg List.length hcalls
  cases h with
  | asked =>
    show (calls.map _).length < (calls.map _ ++ [_]).length
    simp
  | answering received response r down rest hr hrest hcalls hbytes =>
    show received.length < (calls.map _).length
    rw [List.length_map, hlen hcalls]
    omega
  | answered received response r down hr hcalls hbytes =>
    show received.length < (calls.map _).length
    rw [List.length_map, hlen hcalls]
    omega
  | _ => cases hclient

/-- A move that continues the call brings it nearer to its end. -/
theorem Conn.Phase.effort_move (h : c.Phase fmt calls) {m : Move} (hm : m.Continues)
    (hfits : ∀ call ∈ calls, Fits (fmt.response.encode call.response))
    (halive : c.client ≠ .closed) (hmove : c.move fmt cap m = some c') :
    c'.client ≠ .closed ∧ c'.sent = c.sent ∧
      c'.effort calls.length + 1 ≤ c.effort calls.length := by
  cases m with
  | issue req => cases hm
  | close => cases hm
  | clientWrite n =>
    cases h with
    | asking req r up rest hfit hr hrest hbytes =>
      obtain ⟨⟨hpos, hle, -⟩, he⟩ := Option.ite_none_right_eq_some.mp hmove
      cases he
      refine ⟨afterWrite_ne_closed _, rfl, ?_⟩
      simp only [Conn.effort, unsent_afterWrite]
      simp only [Client.unsent, List.length_append, List.length_take, List.length_drop]
      omega
    | left => exact absurd rfl halive
    | _ => cases hmove
  | clientRead n =>
    obtain ⟨client, up, task, down, sent, received⟩ := c
    cases client with
    | receiving r =>
      obtain ⟨⟨hpos, -, hle⟩, he⟩ := Option.ite_none_right_eq_some.mp hmove
      cases he
      refine ⟨Client.noConfusion, rfl, ?_⟩
      simp only [Conn.effort, Client.unsent, List.length_drop]
      simp only at hle
      omega
    | _ => cases hmove
  | clientReturn =>
    have hnotFailed := (h.clientReturn hfits hmove).answered_calls.notFailed
    obtain ⟨client, up, task, down, sent, received⟩ := c
    cases client with
    | receiving r =>
      have hlt := h.received_lt rfl
      cases r with
      | done body =>
        cases hdecode : fmt.response.decode body with
        | none =>
          simp only [Conn.move, hdecode, Option.some.injEq] at hmove
          rw [← hmove] at hnotFailed
          exact absurd rfl hnotFailed
        | some x =>
          simp only [Conn.move, hdecode, Option.some.injEq] at hmove
          rw [← hmove]
          refine ⟨Client.noConfusion, rfl, ?_⟩
          simp only [Conn.effort, Client.unsent, List.length_append, List.length_singleton]
          simp only at hlt
          omega
      | _ => cases hmove
    | _ => cases hmove
  | clientFail =>
    rw [h.not_clientFail] at hmove
    cases hmove
  | taskRead n =>
    obtain ⟨client, up, task, down, sent, received⟩ := c
    cases task with
    | reading r =>
      obtain ⟨⟨hpos, -, hle⟩, he⟩ := Option.ite_none_right_eq_some.mp hmove
      cases he
      refine ⟨halive, rfl, ?_⟩
      simp only [Conn.effort, Task.unwritten, List.length_drop]
      simp only at hle
      omega
    | _ => cases hmove
  | taskWrite n =>
    obtain ⟨client, up, task, down, sent, received⟩ := c
    cases task with
    | writing rest =>
      obtain ⟨⟨hpos, hle, -⟩, he⟩ := Option.ite_none_right_eq_some.mp hmove
      cases he
      refine ⟨halive, rfl, ?_⟩
      simp only [Conn.effort, unwritten_afterWrite]
      simp only [Task.unwritten, List.length_append, List.length_take, List.length_drop]
      omega
    | _ => cases hmove
  | taskEof => exact absurd (Conn.ends_of_move (Or.inl hmove)).1 halive
  | taskReset => exact absurd (Conn.ends_of_move (Or.inr hmove)).1 halive

/-- A request just issued. -/
theorem Conn.Phase.effort_issue (h : c.Phase fmt calls) {req : Request}
    (hmove : c.move fmt cap (.issue req) = some c') :
    c'.client ≠ .closed ∧ c'.sent = calls.map Call.request ++ [req] ∧
      c'.effort calls.length = 2 * (frame (fmt.request.encode req)).length + 2 := by
  cases h with
  | idle =>
    cases hmove
    refine ⟨Client.noConfusion, rfl, ?_⟩
    simp only [Conn.effort, Client.unsent, Task.unwritten, List.length_append, List.length_map,
      List.length_singleton, List.length_nil]
    omega
  | _ => cases hmove

/-- An answer brings the call nearer to its end, its own bytes apart. -/
theorem Conn.Phase.effort_dispatch (h : c.Phase fmt calls) {body : Bytes}
    (htask : c.task = .reading (.done body)) (response : Response) :
    Conn.effort { c with task := .writing (frame (fmt.response.encode response)) }
        (calls.length + 1) + 1
      ≤ c.effort calls.length + 2 * (frame (fmt.response.encode response)).length := by
  obtain ⟨req, -, hphase⟩ := h.dispatch htask
  have hsent := (hphase ⟨0, req, response⟩ rfl).answered_calls.requests.length_le
  rw [List.length_map, List.length_append, List.length_singleton] at hsent
  have hsent' : calls.length + 1 ≤ c.sent.length := hsent
  unfold Conn.effort
  rw [htask]
  simp only [Task.unwritten, List.length_nil]
  omega

theorem clientRead_isSome {r : Reading} (hclient : c.client = .receiving r) (hwants : 0 < r.wants)
    (hpipe : 0 < c.toClient.length) : (c.move fmt cap (.clientRead 1)).isSome := by
  obtain ⟨client, up, task, down, sent, received⟩ := c
  cases hclient
  show (if 0 < 1 ∧ 1 ≤ r.wants ∧ 1 ≤ down.length then _ else none).isSome
  rw [if_pos ⟨by omega, hwants, hpipe⟩]
  rfl

theorem taskRead_isSome {r : Reading} (htask : c.task = .reading r) (hwants : 0 < r.wants)
    (hpipe : 0 < c.toServer.length) : (c.move fmt cap (.taskRead 1)).isSome := by
  obtain ⟨client, up, task, down, sent, received⟩ := c
  cases htask
  show (if 0 < 1 ∧ 1 ≤ r.wants ∧ 1 ≤ up.length then _ else none).isSome
  rw [if_pos ⟨by omega, hwants, hpipe⟩]
  rfl

/-- **No deadlock**: while a client waits, its connection can go on, however small the buffers. -/
theorem Conn.Phase.can_continue (h : c.Phase fmt calls) (hcap : 0 < cap)
    (hfits : ∀ call ∈ calls, Fits (fmt.response.encode call.response))
    (halive : c.client ≠ .closed) (hbusy : c.client ≠ .idle) :
    (∃ m : Move, m.Continues ∧ (c.move fmt cap m).isSome) ∨
      ∃ body, c.task = .reading (.done body) := by
  cases h with
  | idle => exact absurd rfl hbusy
  | asking req r up rest hfit hr hrest hbytes =>
    refine Or.inl ?_
    -- a full pipe gives a byte, another one takes one
    by_cases hfull : up.length < cap
    · refine ⟨.clientWrite 1, trivial, ?_⟩
      have hpos : 0 < rest.length := List.length_pos_iff.mpr hrest
      show (if 0 < 1 ∧ 1 ≤ rest.length ∧ up.length + 1 ≤ cap then _ else none).isSome
      rw [if_pos ⟨by omega, hpos, hfull⟩]
      rfl
    · have hup : 0 < up.length := by omega
      exact ⟨.taskRead 1, trivial, taskRead_isSome rfl (Reading.wants_pos hr hfit hbytes hup) hup⟩
  | asked req r up hfit hr hbytes =>
    cases r with
    | done body => exact Or.inr ⟨body, rfl⟩
    | _ =>
      obtain ⟨hwants, hle⟩ := Reading.wants_le hr hfit hbytes fun got => Reading.noConfusion
      exact Or.inl ⟨.taskRead 1, trivial, taskRead_isSome rfl hwants (hwants.trans_le hle)⟩
  | answering received response r down rest hr hrest hcalls hbytes =>
    refine Or.inl ?_
    by_cases hfull : down.length < cap
    · refine ⟨.taskWrite 1, trivial, ?_⟩
      have hpos : 0 < rest.length := List.length_pos_iff.mpr hrest
      show (if 0 < 1 ∧ 1 ≤ rest.length ∧ down.length + 1 ≤ cap ∧ Client.receiving r ≠ .closed
        then _ else none).isSome
      rw [if_pos ⟨by omega, hpos, hfull, Client.noConfusion⟩]
      rfl
    · have hdown : 0 < down.length := by omega
      have hwants := Reading.wants_pos hr (fits_last hfits hcalls) hbytes hdown
      exact ⟨.clientRead 1, trivial, clientRead_isSome rfl hwants hdown⟩
  | answered received response r down hr hcalls hbytes =>
    refine Or.inl ?_
    cases r with
    | done body =>
      refine ⟨.clientReturn, trivial, ?_⟩
      simp only [Conn.move]
      cases fmt.response.decode body <;> rfl
    | _ =>
      obtain ⟨hwants, hle⟩ := Reading.wants_le hr (fits_last hfits hcalls) hbytes
        fun got => Reading.noConfusion
      exact ⟨.clientRead 1, trivial, clientRead_isSome rfl hwants (hwants.trans_le hle)⟩
  | left => exact absurd rfl halive
  | leftAsking => exact absurd rfl halive
  | leftDropped => exact absurd rfl halive

end Effort

/-- The connection that a step is of. -/
def Act.conn : Act → ℕ
  | .connect i => i
  | .move i _ => i
  | .undecodable i => i
  | .dispatch i _ => i

/-- The step does not start or abandon a call of connection `i`. -/
def Act.Continues (i : ℕ) : Act → Prop
  | .move j m => j = i → m.Continues
  | _ => True

instance (i : ℕ) : ∀ act : Act, Decidable (act.Continues i)
  | .move j m => inferInstanceAs (Decidable (j = i → m.Continues))
  | .connect _ | .undecodable _ | .dispatch _ _ => isTrue trivial

namespace System

section Effort

variable {fmt : WireFormats} {cap : ℕ} {w w' : System} {i : ℕ} {c : Conn}

theorem replyBytes_append (calls more : List Call) :
    replyBytes fmt (calls ++ more) = replyBytes fmt calls + replyBytes fmt more := by
  simp [replyBytes]

/-- What a connection of a served system can do, the system can do. -/
theorem Served.can_continue (h : w.Served fmt) (hcap : 0 < cap) (hfits : w.AnswersFit fmt)
    (hi : w.conns.lookup i = some c) (halive : c.client ≠ .closed) (hbusy : c.client ≠ .idle) :
    ∃ act : Act, act.conn = i ∧ act.Continues i ∧ (w.step fmt cap act).isSome := by
  rcases (h.phases i c hi).can_continue hcap
    (fun call hcall => hfits call (List.mem_of_mem_filter hcall)) halive hbusy
    with ⟨m, hm, hmove⟩ | ⟨body, htask⟩
  · obtain ⟨c', hc'⟩ := Option.isSome_iff_exists.mp hmove
    refine ⟨.move i m, rfl, fun _ => hm, ?_⟩
    show ((w.conns.lookup i).bind _).isSome
    rw [hi]
    show ((c.move fmt cap m).map _).isSome
    rw [hc']
    rfl
  · -- the request is handed to `dispatch`, which returns
    obtain ⟨req, hdecode, -⟩ := (h.phases i c hi).dispatch htask
    refine ⟨.dispatch i .flush, rfl, trivial, ?_⟩
    show ((w.conns.lookup i).bind fun c => c.body.bind fun body => _).isSome
    rw [hi, Option.bind_some, body_eq_some.mpr htask, Option.bind_some, hdecode]
    rfl

/-- A step of another connection. -/
theorem step_other {act : Act} (hne : act.conn ≠ i) (hstep : w.step fmt cap act = some w') :
    w'.conns.lookup i = w.conns.lookup i ∧ w'.callsOf i = w.callsOf i := by
  rcases step_cases hstep with ⟨j, rfl, -, rfl⟩ | ⟨j, m, d, d', rfl, -, -, rfl⟩
    | ⟨j, d, body, rfl, -, -, -, rfl⟩ | ⟨j, response, d, body, req, rest, rfl, -, -, -, rfl⟩
  · exact ⟨Finmap.lookup_insert_of_ne _ (Ne.symm hne), rfl⟩
  · exact ⟨Finmap.lookup_insert_of_ne _ (Ne.symm hne), rfl⟩
  · exact ⟨Finmap.lookup_insert_of_ne _ (Ne.symm hne), rfl⟩
  · refine ⟨Finmap.lookup_insert_of_ne _ (Ne.symm hne), ?_⟩
    have hne' : j ≠ i := hne
    rw [callsOf_respond, if_neg hne', List.append_nil]

/-- A step of the connection itself that does not start or abandon a call. -/
theorem Served.effort_own {act : Act} (h : w.Served fmt) (hfits : w.AnswersFit fmt)
    (hi : w.conns.lookup i = some c) (halive : c.client ≠ .closed) (hown : act.conn = i)
    (hact : act.Continues i) (hstep : w.step fmt cap act = some w') :
    ∃ c', w'.conns.lookup i = some c' ∧ c'.client ≠ .closed ∧ c'.sent = c.sent ∧
      c'.effort (w'.callsOf i).length + 1 + 2 * replyBytes fmt (w.callsOf i)
        ≤ c.effort (w.callsOf i).length + 2 * replyBytes fmt (w'.callsOf i) := by
  have hphase := h.phases i c hi
  rcases step_cases hstep with ⟨j, rfl, hj, rfl⟩ | ⟨j, m, d, d', rfl, hj, hmove, rfl⟩
    | ⟨j, d, body, rfl, hj, htask, hnone, rfl⟩
    | ⟨j, response, d, body, req, rest, rfl, hj, htask, -, rfl⟩
  · obtain rfl : j = i := hown
    rw [hi] at hj
    cases hj
  · obtain rfl : j = i := hown
    obtain rfl : d = c := Option.some.inj (hj.symm.trans hi)
    obtain ⟨halive', hsent, hle⟩ := hphase.effort_move (hact rfl)
      (fun call hcall => hfits call (List.mem_of_mem_filter hcall)) halive hmove
    refine ⟨d', Finmap.lookup_insert _, halive', hsent, ?_⟩
    show d'.effort (w.callsOf j).length + 1 + 2 * replyBytes fmt (w.callsOf j)
      ≤ d.effort (w.callsOf j).length + 2 * replyBytes fmt (w.callsOf j)
    omega
  · obtain rfl : j = i := hown
    obtain rfl : d = c := Option.some.inj (hj.symm.trans hi)
    obtain ⟨req, hdecode, -⟩ := hphase.dispatch htask
    rw [hnone] at hdecode
    cases hdecode
  · obtain rfl : j = i := hown
    obtain rfl : d = c := Option.some.inj (hj.symm.trans hi)
    have hle := hphase.effort_dispatch htask response
    refine ⟨_, Finmap.lookup_insert _, halive, rfl, ?_⟩
    have hbytes : replyBytes fmt [⟨j, req, response⟩]
        = (frame (fmt.response.encode response)).length := by
      simp [replyBytes]
    rw [callsOf_respond, if_pos rfl, replyBytes_append, List.length_append,
      List.length_singleton, hbytes]
    omega

/-- A run in which the connection neither starts nor abandons a call. -/
theorem Served.effort_run {acts : List Act} (h : w.Served fmt)
    (hissue : ∀ act ∈ acts, act.FitsIn fmt) (hrun : Lib.run (System.step fmt cap) w acts = some w')
    (hfits : w'.AnswersFit fmt) (hi : w.conns.lookup i = some c) (halive : c.client ≠ .closed)
    (hacts : ∀ act ∈ acts, act.Continues i) :
    ∃ c', w'.conns.lookup i = some c' ∧ c'.client ≠ .closed ∧ c'.sent = c.sent ∧
      (acts.filter (·.conn = i)).length + c'.effort (w'.callsOf i).length
          + 2 * replyBytes fmt (w.callsOf i)
        ≤ c.effort (w.callsOf i).length + 2 * replyBytes fmt (w'.callsOf i) := by
  induction acts generalizing w c with
  | nil =>
    cases hrun
    refine ⟨c, hi, halive, rfl, ?_⟩
    rw [List.filter_nil, List.length_nil, Nat.zero_add]
  | cons act acts ih =>
    rw [run_cons] at hrun
    obtain ⟨u, hu, hrest⟩ := Option.bind_eq_some_iff.mp hrun
    have hgrew := calls_prefix_of_run hrest
    have hw : w.AnswersFit fmt := fun call hcall =>
      hfits call (((calls_prefix_of_step hu).trans hgrew).subset hcall)
    have hserved : u.Served fmt :=
      h.step (hissue act List.mem_cons_self) hw hu
    have hissue' : ∀ act ∈ acts, act.FitsIn fmt :=
      fun b hb => hissue b (List.mem_cons_of_mem _ hb)
    have hacts' : ∀ act ∈ acts, act.Continues i :=
      fun b hb => hacts b (List.mem_cons_of_mem _ hb)
    by_cases hown : act.conn = i
    · -- its own step costs effort, unless it is paid for by the bytes of a new response
      obtain ⟨d, hd, hdalive, hdsent, hstep⟩ :=
        h.effort_own hw hi halive hown (hacts act List.mem_cons_self) hu
      obtain ⟨c', hc', halive', hsent, hle⟩ := ih hserved hissue' hrest hd hdalive hacts'
      refine ⟨c', hc', halive', hsent.trans hdsent, ?_⟩
      rw [List.filter_cons_of_pos (by simpa using hown), List.length_cons]
      omega
    · obtain ⟨hsame, hcalls⟩ := step_other hown hu
      obtain ⟨c', hc', halive', hsent, hle⟩ :=
        ih hserved hissue' hrest (hsame.trans hi) halive hacts'
      refine ⟨c', hc', halive', hsent, ?_⟩
      rw [List.filter_cons_of_neg (by simpa using hown), ← hcalls]
      exact hle

end Effort

end System

/-- **Every call returns.** From the moment a request is issued its connection takes at most twice
as many steps as there are bytes in the request and in the response, and two more, until the call
has returned; while it has not, one of its steps is enabled, whatever the other connections do. -/
theorem send_request_returns {fmt : WireFormats} {cap : ℕ} {w₀ w w' : System} {i : ℕ}
    {req : Request} {before acts : List Act} (hcap : 0 < cap)
    (hbefore : run (System.step fmt cap) System.start before = some w₀)
    (hissued : w₀.step fmt cap (.move i (.issue req)) = some w)
    (hrun : run (System.step fmt cap) w acts = some w')
    (hissue : ∀ act ∈ before ++ .move i (.issue req) :: acts, act.FitsIn fmt)
    (hfits : w'.AnswersFit fmt) (hacts : ∀ act ∈ acts, act.Continues i) :
    ∃ c new, w'.conns.lookup i = some c ∧ w'.callsOf i = w₀.callsOf i ++ new ∧ new.length ≤ 1 ∧
      (acts.filter (·.conn = i)).length
        ≤ 2 * (frame (fmt.request.encode req)).length + 2 * replyBytes fmt new + 2 ∧
      (c.client = .idle ∨
        ∃ act : Act, act.conn = i ∧ act.Continues i ∧ (w'.step fmt cap act).isSome) := by
  have hgrew : w₀.calls <+: w.calls := System.calls_prefix_of_step hissued
  have hlater : w.calls <+: w'.calls := System.calls_prefix_of_run hrun
  have hfits₀ : w₀.AnswersFit fmt :=
    fun call hcall => hfits call ((hgrew.trans hlater).subset hcall)
  have hfits₁ : w.AnswersFit fmt := fun call hcall => hfits call (hlater.subset hcall)
  have hserved₀ : w₀.Served fmt := System.served_start.run
    (fun act hact => hissue act (List.mem_append_left _ hact)) hbefore hfits₀
  have hserved : w.Served fmt := hserved₀.step
    (hissue _ (List.mem_append_right _ List.mem_cons_self)) hfits₀ hissued
  have hrest : ∀ act ∈ acts, act.FitsIn fmt := fun act hact =>
    hissue act (List.mem_append_right _ (List.mem_cons_of_mem _ hact))
  -- the call starts
  rcases System.step_cases hissued with ⟨j, he, -⟩ | ⟨j, m, c₀, c₁, he, hc₀, hmove, rfl⟩
    | ⟨j, d, body, he, -⟩ | ⟨j, response, d, body, r, rest, he, -⟩
  · cases he
  · cases he
    obtain ⟨halive, hsent, heffort⟩ := (hserved₀.phases i c₀ hc₀).effort_issue hmove
    -- and goes on
    obtain ⟨c, hc, halive', hsent', hle⟩ := hserved.effort_run hrest hrun hfits
      (Finmap.lookup_insert _) halive hacts
    have hserved' := hserved.run hrest hrun hfits
    obtain ⟨new, hnew⟩ := (hlater.filter fun call => call.conn = i)
    have hnew' : w'.callsOf i = w₀.callsOf i ++ new := hnew.symm
    have hcount := (hserved'.phases i c hc).answered_calls.requests.length_le
    rw [hnew', hsent', hsent, List.map_append, List.length_append, List.length_append,
      List.length_map, List.length_map, List.length_singleton] at hcount
    refine ⟨c, new, hc, hnew', by omega, ?_, ?_⟩
    · rw [hnew', System.replyBytes_append] at hle
      have hle' : (acts.filter (·.conn = i)).length + c.effort (w₀.callsOf i ++ new).length
            + 2 * replyBytes fmt (w₀.callsOf i)
          ≤ c₁.effort (w₀.callsOf i).length
            + 2 * (replyBytes fmt (w₀.callsOf i) + replyBytes fmt new) := hle
      rw [heffort] at hle'
      omega
    · by_cases hidle : c.client = .idle
      · exact Or.inl hidle
      · exact Or.inr (hserved'.can_continue hcap hfits hc halive' hidle)
  · cases he
  · cases he

/-- The steps of `oneDies` from the request of the first client on. -/
theorem send_request_returns_oneDies : ∃ w₀ w',
      run (System.step .postcard 3) System.start (oneDies.take 2) = some w₀ ∧
      run (System.step .postcard 3) System.start oneDies = some w' ∧
      ∃ c new, w'.conns.lookup 0 = some c ∧ w'.callsOf 0 = w₀.callsOf 0 ++ new ∧
        new.length ≤ 1 ∧
        ((oneDies.drop 3).filter (·.conn = 0)).length
          ≤ 2 * (frame (WireFormats.postcard.request.encode .flush)).length
            + 2 * replyBytes .postcard new + 2 ∧
        (c.client = .idle ∨ ∃ act : Act, act.conn = 0 ∧ act.Continues 0 ∧
          (w'.step .postcard 3 act).isSome) := by
  have hfits : ((run (System.step .postcard 3) System.start
      (oneDies.take 2 ++ .move 0 (.issue .flush) :: oneDies.drop 3)).any
      fun w => decide (w.AnswersFit .postcard)) = true := by decide +kernel
  obtain ⟨w', hw', hfit⟩ := (Option.any_eq_true _ _).mp hfits
  have hrun := hw'
  rw [run_append] at hw'
  obtain ⟨w₀, hw₀, hw'⟩ := Option.bind_eq_some_iff.mp hw'
  rw [run_cons] at hw'
  obtain ⟨w, hw, hw'⟩ := Option.bind_eq_some_iff.mp hw'
  exact ⟨w₀, w', hw₀, hrun, send_request_returns (by omega) hw₀ hw hw' (by decide +kernel)
    (of_decide_eq_true hfit) (by decide +kernel)⟩

end Cas.Syncing.Wire
