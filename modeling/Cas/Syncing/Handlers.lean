/-
  Cas.Syncing.Handlers — requests that are handled beside each other.

  The server runs on several threads: between reading a request and
  writing the response, the task of a connection is inside `dispatch`,
  which takes steps on the daemon's state with the steps of other
  connections in between.  `Handlers` says what these steps are; nothing
  is assumed of them but that a handler with a response is over.

  Main results:
    • `calls_answered` — in every run of the daemon, the state is one that
      the handlers of the requests reach in some interleaving; every
      request is handled once, in the order sent, and its `send_request`
      returns the response of its own handler.
    • `shared_alone_eq_dispatch` — a handler that nothing interrupts is
      `dispatch`.
-/
import Mathlib.Data.Nat.Pairing
import Cas.Syncing.Flushing
import Cas.Syncing.Wire

namespace Cas.Syncing.Wire

open Cas.Lib

/-! ## §1. The daemon. -/

/-- Tasks `τ` that handle requests over a shared state `σ`; one that has its response is over. -/
structure Handlers (σ τ ε δ : Type) extends Protocol σ τ Request ε δ where
  answer : τ → Option Response
  finished : ∀ e s t, (answer t).isSome → advance e s t = none

/-- The handler of the `k`th request of connection `i`. -/
def handlerId (i k : ℕ) : ℕ := Nat.pair i k

theorem handlerId_inj {i j k l : ℕ} (h : handlerId i k = handlerId j l) : i = j ∧ k = l :=
  Nat.pair_eq_pair.mp h

/-- The connections and the handlers. -/
structure Daemon (σ τ ε δ : Type) where
  wire : System
  pool : Pool σ τ
  /-- The steps of the handlers, oldest first. -/
  steps : List (PoolAct Request ε δ)

inductive DaemonAct (ε δ : Type)
  /-- An act of the connections alone. -/
  | wire (act : Act)
  /-- The task of `i` decodes the request it has read and calls `dispatch`. -/
  | handle (i : ℕ)
  | advance (i : ℕ) (e : ε)
  | outside (d : δ)
  /-- `dispatch` returns. -/
  | respond (i : ℕ)

namespace Daemon

variable {σ τ ε δ : Type}

def start (s : σ) : Daemon σ τ ε δ := ⟨.start, Protocol.idle s, []⟩

/-- The handler of the request that connection `i` has come to. -/
def turn (w : Daemon σ τ ε δ) (i : ℕ) : ℕ := handlerId i (w.wire.callsOf i).length

section Steps

variable (fmt : WireFormats) (cap : ℕ) (H : Handlers σ τ ε δ)

/-- A step of the handlers. -/
def poolStep (w : Daemon σ τ ε δ) (act : PoolAct Request ε δ) : Option (Daemon σ τ ε δ) :=
  (H.step w.pool act).map fun pool => { w with pool, steps := w.steps ++ [act] }

def wireStep (w : Daemon σ τ ε δ) (act : Act) : Option (Daemon σ τ ε δ) :=
  (w.wire.step fmt cap act).map fun wire => { w with wire }

/-- `none` when the act is not enabled. -/
def step (w : Daemon σ τ ε δ) : DaemonAct ε δ → Option (Daemon σ τ ε δ)
  | .wire act =>
    match act with
    -- a response comes from a handler only
    | .dispatch _ _ => none
    | act => w.wireStep fmt cap act
  | .handle i => (w.wire.conns.lookup i).bind fun c => c.body.bind fun body =>
      (fmt.request.decode body).bind fun r => w.poolStep H (.start (w.turn i) r.1)
  | .advance i e => w.poolStep H (.advance (w.turn i) e)
  | .outside d => w.poolStep H (.outside d)
  | .respond i => (w.pool.tasks.lookup (w.turn i)).bind fun t => (H.answer t).bind fun response =>
      w.wireStep fmt cap (.dispatch i response)

end Steps

/-- The request was given to a handler of its own, and that is what came out. -/
def Handled (H : Handlers σ τ ε δ) (w : Daemon σ τ ε δ) (i k : ℕ) (req : Request)
    (response : Response) : Prop :=
  .start (handlerId i k) req ∈ w.steps ∧
    ∃ t, w.pool.tasks.lookup (handlerId i k) = some t ∧ H.answer t = some response

/-- The end of connection `i` that the run leaves. -/
structure Serves (H : Handlers σ τ ε δ) (w : Daemon σ τ ε δ) (i : ℕ) (c : Conn) : Prop where
  /-- The `k`th call returned the response of the handler of the `k`th request. -/
  returned : ∀ k response, c.received[k]? = some response →
    ∃ req, c.sent[k]? = some req ∧ w.Handled H i k req response
  idle : c.client = .idle → c.received.length = c.sent.length
  notFailed : c.client ≠ .failed
  ended : ∀ ok, c.task = .ended ok → c.client = .closed

/-- What a run has done with the requests. -/
structure Delivers (H : Handlers σ τ ε δ) (s : σ) (w : Daemon σ τ ε δ) : Prop where
  /-- The state is where the handlers have brought it, in the interleaving of the run. -/
  state : run H.step (Protocol.idle s) w.steps = some w.pool
  once : (w.steps.filterMap PoolAct.started).Nodup
  /-- Only what has been sent is handled, and not before the requests ahead of it are answered. -/
  inOrder : ∀ j req, .start j req ∈ w.steps → ∃ i c k, j = handlerId i k ∧
    w.wire.conns.lookup i = some c ∧ c.sent[k]? = some req ∧
    ∀ k' < k, ∃ req' response, w.Handled H i k' req' response
  serves : ∀ i c, w.wire.conns.lookup i = some c → w.Serves H i c

/-! ## §2. One step. -/

section Invariant

variable {fmt : WireFormats} {cap : ℕ} {H : Handlers σ τ ε δ} {s : σ} {w w' : Daemon σ τ ε δ}
  {act : DaemonAct ε δ}

/-- Everything that one step can be. -/
theorem step_cases (h : w.step fmt cap H act = some w') :
    (∃ a wire, act = .wire a ∧ (∀ i response, a ≠ .dispatch i response) ∧
      w.wire.step fmt cap a = some wire ∧ w' = { w with wire }) ∨
    (∃ i c body req rest pool, act = .handle i ∧ w.wire.conns.lookup i = some c ∧
      c.task = .reading (.done body) ∧ fmt.request.decode body = some (req, rest) ∧
      H.step w.pool (.start (w.turn i) req) = some pool ∧
      w' = { w with pool, steps := w.steps ++ [.start (w.turn i) req] }) ∨
    (∃ a pool, a.started = none ∧ H.step w.pool a = some pool ∧
      w' = { w with pool, steps := w.steps ++ [a] }) ∨
    (∃ i t response wire, act = .respond i ∧ w.pool.tasks.lookup (w.turn i) = some t ∧
      H.answer t = some response ∧ w.wire.step fmt cap (.dispatch i response) = some wire ∧
      w' = { w with wire }) := by
  cases act with
  | wire a =>
    refine Or.inl ?_
    cases a with
    | dispatch i response => cases h
    | _ =>
      obtain ⟨wire, hwire, rfl⟩ := Option.map_eq_some_iff.mp h
      exact ⟨_, wire, rfl, fun _ _ => Act.noConfusion, hwire, rfl⟩
  | handle i =>
    obtain ⟨c, hc, h⟩ := Option.bind_eq_some_iff.mp h
    obtain ⟨body, hbody, h⟩ := Option.bind_eq_some_iff.mp h
    obtain ⟨⟨req, rest⟩, hdecode, h⟩ := Option.bind_eq_some_iff.mp h
    obtain ⟨pool, hpool, rfl⟩ := Option.map_eq_some_iff.mp h
    exact Or.inr (Or.inl ⟨i, c, body, req, rest, pool, rfl, hc, System.body_eq_some.mp hbody,
      hdecode, hpool, rfl⟩)
  | advance i e =>
    obtain ⟨pool, hpool, rfl⟩ := Option.map_eq_some_iff.mp h
    exact Or.inr (Or.inr (Or.inl ⟨_, pool, rfl, hpool, rfl⟩))
  | outside d =>
    obtain ⟨pool, hpool, rfl⟩ := Option.map_eq_some_iff.mp h
    exact Or.inr (Or.inr (Or.inl ⟨_, pool, rfl, hpool, rfl⟩))
  | respond i =>
    obtain ⟨t, ht, h⟩ := Option.bind_eq_some_iff.mp h
    obtain ⟨response, hanswer, h⟩ := Option.bind_eq_some_iff.mp h
    obtain ⟨wire, hwire, rfl⟩ := Option.map_eq_some_iff.mp h
    exact Or.inr (Or.inr (Or.inr ⟨i, t, response, wire, rfl, ht, hanswer, hwire, rfl⟩))

/-- A request that is given to a handler is under way, or has been answered. -/
def Started (fmt : WireFormats) (w : Daemon σ τ ε δ) (i k : ℕ) (req : Request) : Prop :=
  ∃ c, w.wire.conns.lookup i = some c ∧ c.sent[k]? = some req ∧ k ≤ (w.wire.callsOf i).length ∧
    (k = (w.wire.callsOf i).length → ∃ body rest, c.task = .reading (.done body) ∧
      fmt.request.decode body = some (req, rest))

/-- The calls so far are what the handlers made of the requests. -/
structure Kept (fmt : WireFormats) (H : Handlers σ τ ε δ) (s : σ) (w : Daemon σ τ ε δ) : Prop where
  served : w.wire.Served fmt
  run : Lib.run H.step (Protocol.idle s) w.steps = some w.pool
  handled : ∀ i k call, (w.wire.callsOf i)[k]? = some call →
    w.Handled H i k call.request call.response
  started : ∀ j req, .start j req ∈ w.steps → ∃ i k, j = handlerId i k ∧ w.Started fmt i k req

theorem kept_start (s : σ) : (start s : Daemon σ τ ε δ).Kept fmt H s := by
  refine ⟨System.served_start, rfl, fun i k call hcall => ?_, fun j req hstart => ?_⟩
  · have hnone : ([] : List Call)[k]? = some call := hcall
    cases hnone
  · cases hstart

/-- A handler that has answered takes no further step. -/
theorem Handled.mono {i k : ℕ} {req : Request} {response : Response} {a : PoolAct Request ε δ}
    {pool : Pool σ τ} (h : w.Handled H i k req response) (hstep : H.step w.pool a = some pool) :
    Handled H { w with pool, steps := w.steps ++ [a] } i k req response := by
  obtain ⟨hstart, t, ht, hanswer⟩ := h
  refine ⟨List.mem_append_left _ hstart, ?_⟩
  rcases H.step_cases hstep with ⟨j, x, rfl, hj, rfl⟩ | ⟨j, e, u, s', u', rfl, hj, hadvance, rfl⟩
    | ⟨d, s', rfl, -, rfl⟩
  · have hne : handlerId i k ≠ j := by
      rintro rfl
      rw [ht] at hj
      cases hj
    exact ⟨t, (Finmap.lookup_insert_of_ne _ hne).trans ht, hanswer⟩
  · have hne : handlerId i k ≠ j := by
      rintro rfl
      obtain rfl : t = u := Option.some.inj (ht.symm.trans hj)
      rw [H.finished e _ t (by rw [hanswer]; rfl)] at hadvance
      cases hadvance
    exact ⟨t, (Finmap.lookup_insert_of_ne _ hne).trans ht, hanswer⟩
  · exact ⟨t, ht, hanswer⟩

/-- A step of the connections that returns no response leaves the request under way. -/
theorem Started.mono {i k : ℕ} {req : Request} {a : Act} {wire : System}
    (h : w.Started fmt i k req) (ha : ∀ j response, a ≠ .dispatch j response)
    (hstep : w.wire.step fmt cap a = some wire) : Started fmt { w with wire } i k req := by
  obtain ⟨c, hc, hsent, hle, hbusy⟩ := h
  obtain ⟨hcalls, hconn⟩ := System.conn_of_step hstep ha
  obtain ⟨c', hc', ⟨more, hmore⟩, htask⟩ := hconn i c hc
  have hsame : wire.callsOf i = w.wire.callsOf i := by
    unfold System.callsOf
    rw [hcalls]
  refine ⟨c', hc', ?_, hsame ▸ hle, fun hk => ?_⟩
  · rw [← hmore]
    exact List.getElem?_append_left (List.getElem?_eq_some_iff.mp hsent).1 ▸ hsent
  · obtain ⟨body, rest, hbody, hdecode⟩ := hbusy (hk.trans (congrArg List.length hsame))
    exact ⟨body, rest, (htask body req rest hbody hdecode).trans hbody, hdecode⟩

/-- A step of the handlers. -/
theorem Kept.poolStep {a : PoolAct Request ε δ} {pool : Pool σ τ} (h : w.Kept fmt H s)
    (hstep : H.step w.pool a = some pool)
    (ha : ∀ j req, a = .start j req → ∃ i k, j = handlerId i k ∧ w.Started fmt i k req) :
    Kept fmt H s { w with pool, steps := w.steps ++ [a] } := by
  refine ⟨h.served, ?_, fun i k call hcall => (h.handled i k call hcall).mono hstep,
    fun j req hmem => ?_⟩
  · show Lib.run H.step _ (w.steps ++ [a]) = some pool
    rw [run_append, h.run, Option.bind_some, run_cons, hstep]
    rfl
  · rcases List.mem_append.mp hmem with hmem | hmem
    · exact h.started j req hmem
    · exact ha j req (List.mem_singleton.mp hmem).symm

/-- A request that has been read is the next one of its connection. -/
theorem Kept.started_handle {i : ℕ} {c : Conn} {body rest : Bytes} {req : Request}
    (h : w.Kept fmt H s) (hc : w.wire.conns.lookup i = some c)
    (htask : c.task = .reading (.done body)) (hdecode : fmt.request.decode body = some (req, rest)) :
    w.Started fmt i (w.wire.callsOf i).length req := by
  obtain ⟨req', hdecode', hphase⟩ := (h.served.phases i c hc).dispatch htask
  obtain rfl : req = req' := congrArg Prod.fst (Option.some.inj (hdecode.symm.trans hdecode'))
  obtain ⟨more, hmore⟩ := (hphase ⟨i, req, .flush⟩ rfl).answered_calls.requests
  refine ⟨c, hc, ?_, le_rfl, fun _ => ⟨body, rest, htask, hdecode⟩⟩
  show c.sent[_]? = _
  rw [← show _ = c.sent from hmore]
  simp

/-- The handler that answers is the one of the request under way. -/
theorem Kept.respond {i : ℕ} {t : τ} {response : Response} {wire : System} (h : w.Kept fmt H s)
    (hfits : w.wire.AnswersFit fmt) (ht : w.pool.tasks.lookup (w.turn i) = some t)
    (hanswer : H.answer t = some response)
    (hwire : w.wire.step fmt cap (.dispatch i response) = some wire) :
    Kept fmt H s { w with wire } := by
  have hfitsIn : (Act.dispatch i response).FitsIn fmt := trivial
  have hserved : wire.Served fmt := h.served.step hfitsIn hfits hwire
  rcases System.step_cases hwire with ⟨j, he, -⟩ | ⟨j, m, c, c', he, -⟩ | ⟨j, c, body, he, -⟩
    | ⟨j, r, c, body, req, rest, he, hc, htask, hdecode, rfl⟩
  · cases he
  · cases he
  · cases he
  · cases he
    -- the request that was given to the handler is the one that has been read
    have hstart : .start (w.turn i) req ∈ w.steps := by
      obtain ⟨x, hx⟩ := H.start_mem_of_run h.run ht
      obtain ⟨i', k', hid, c', hc', -, -, hbusy⟩ := h.started _ x hx
      obtain ⟨rfl, hk⟩ := handlerId_inj hid
      obtain rfl : c = c' := Option.some.inj (hc.symm.trans hc')
      obtain ⟨body', rest', hbody, hdecode'⟩ := hbusy hk.symm
      obtain rfl : body = body' := Reading.done.inj (Task.reading.inj (htask.symm.trans hbody))
      obtain rfl : req = x := congrArg Prod.fst (Option.some.inj (hdecode.symm.trans hdecode'))
      exact hx
    refine ⟨hserved, h.run, fun i' k call hcall => ?_, fun j req' hmem => ?_⟩
    · rw [System.callsOf_respond] at hcall
      by_cases hi : i = i'
      · subst hi
        rw [if_pos rfl] at hcall
        rcases Nat.lt_or_ge k (w.wire.callsOf i).length with hk | hk
        · rw [List.getElem?_append_left hk] at hcall
          exact h.handled i k call hcall
        · -- the new call
          rw [List.getElem?_append_right hk, List.getElem?_singleton] at hcall
          split at hcall
          · rename_i hzero
            cases hcall
            obtain rfl : k = (w.wire.callsOf i).length := by omega
            exact ⟨hstart, t, ht, hanswer⟩
          · cases hcall
      · rw [if_neg hi, List.append_nil] at hcall
        exact h.handled i' k call hcall
    · obtain ⟨i', k, hid, c', hc', hsent, hle, hbusy⟩ := h.started j req' hmem
      refine ⟨i', k, hid, ?_⟩
      by_cases hi : i = i'
      · subst hi
        obtain rfl : c = c' := Option.some.inj (hc.symm.trans hc')
        have hlength : ((w.wire.respond fmt i c req response).callsOf i).length
            = (w.wire.callsOf i).length + 1 := by
          rw [System.callsOf_respond, if_pos rfl, List.length_append, List.length_singleton]
        refine ⟨_, Finmap.lookup_insert _, hsent, ?_, fun hk => ?_⟩
        · show k ≤ ((w.wire.respond fmt i c req response).callsOf i).length
          omega
        · have hk' : k = ((w.wire.respond fmt i c req response).callsOf i).length := hk
          omega
      · have hsame : (w.wire.respond fmt i c req response).callsOf i' = w.wire.callsOf i' := by
          rw [System.callsOf_respond, if_neg hi, List.append_nil]
        refine ⟨c', (Finmap.lookup_insert_of_ne _ (Ne.symm hi)).trans hc', hsent, ?_, fun hk => ?_⟩
        · show k ≤ ((w.wire.respond fmt i c req response).callsOf i').length
          rwa [hsame]
        · exact hbusy (hk.trans (congrArg List.length hsame))

end Invariant

end Daemon

/-- A request that is issued is short enough for its length to be written. -/
def DaemonAct.FitsIn {ε δ : Type} (fmt : WireFormats) : DaemonAct ε δ → Prop
  | .wire act => act.FitsIn fmt
  | _ => True

instance {ε δ : Type} (fmt : WireFormats) : ∀ act : DaemonAct ε δ, Decidable (act.FitsIn fmt)
  | .wire act => inferInstanceAs (Decidable (act.FitsIn fmt))
  | .handle _ | .advance _ _ | .outside _ | .respond _ => isTrue trivial

namespace Daemon

variable {σ τ ε δ : Type} {fmt : WireFormats} {cap : ℕ} {H : Handlers σ τ ε δ} {s : σ}
  {w w' : Daemon σ τ ε δ} {act : DaemonAct ε δ}

/-- **One step of the daemon.** -/
theorem Kept.step (h : w.Kept fmt H s) (hissue : act.FitsIn fmt) (hfits : w.wire.AnswersFit fmt)
    (hstep : w.step fmt cap H act = some w') : w'.Kept fmt H s := by
  rcases step_cases hstep with ⟨a, wire, rfl, ha, hwire, rfl⟩
    | ⟨i, c, body, req, rest, pool, rfl, hc, htask, hdecode, hpool, rfl⟩
    | ⟨a, pool, ha, hpool, rfl⟩ | ⟨i, t, response, wire, rfl, ht, hanswer, hwire, rfl⟩
  · have hsame : ∀ i, wire.callsOf i = w.wire.callsOf i := by
      intro i
      unfold System.callsOf
      rw [(System.conn_of_step hwire ha).1]
    refine ⟨h.served.step hissue hfits hwire, h.run, fun i k call hcall => ?_,
      fun j req hmem => ?_⟩
    · exact h.handled i k call (hsame i ▸ hcall)
    · obtain ⟨i, k, hid, hstarted⟩ := h.started j req hmem
      exact ⟨i, k, hid, hstarted.mono ha hwire⟩
  · apply h.poolStep hpool
    intro j x hx
    cases hx
    exact ⟨i, _, rfl, h.started_handle hc htask hdecode⟩
  · apply h.poolStep hpool
    rintro j x rfl
    cases ha
  · exact h.respond hfits ht hanswer hwire

theorem calls_prefix_of_step (h : w.step fmt cap H act = some w') :
    w.wire.calls <+: w'.wire.calls := by
  rcases step_cases h with ⟨a, wire, -, -, hwire, rfl⟩ | ⟨i, c, body, req, rest, pool, -, -, -, -,
    -, rfl⟩ | ⟨a, pool, -, -, rfl⟩ | ⟨i, t, response, wire, -, -, -, hwire, rfl⟩
  · exact System.calls_prefix_of_step hwire
  · exact List.prefix_rfl
  · exact List.prefix_rfl
  · exact System.calls_prefix_of_step hwire

/-- A run of the daemon. -/
theorem Kept.of_run {acts : List (DaemonAct ε δ)} (h : w.Kept fmt H s)
    (hissue : ∀ act ∈ acts, act.FitsIn fmt)
    (hrun : Lib.run (Daemon.step fmt cap H) w acts = some w') (hfits : w'.wire.AnswersFit fmt) :
    w'.Kept fmt H s := by
  induction acts generalizing w with
  | nil =>
    cases hrun
    exact h
  | cons act acts ih =>
    rw [run_cons] at hrun
    obtain ⟨u, hu, hrest⟩ := Option.bind_eq_some_iff.mp hrun
    have hgrew : w.wire.calls <+: w'.wire.calls :=
      (calls_prefix_of_step hu).trans
        (run_invariant (I := fun v => u.wire.calls <+: v.wire.calls)
          (fun _ _ _ hv hstep => hv.trans (calls_prefix_of_step hstep)) List.prefix_rfl hrest)
    have hkept : u.Kept fmt H s := h.step (hissue act List.mem_cons_self)
      (fun call hcall => hfits call (hgrew.subset hcall)) hu
    exact ih hkept (fun a ha => hissue a (List.mem_cons_of_mem _ ha)) hrest

/-- What a client has got, seen from its connection. -/
theorem Kept.serves (h : w.Kept fmt H s) {i : ℕ} {c : Conn}
    (hc : w.wire.conns.lookup i = some c) : w.Serves H i c := by
  have hanswered : c.Answered (w.wire.callsOf i) := (h.served.phases i c hc).answered_calls
  refine ⟨fun k response hk => ?_, fun hidle => ?_, hanswered.notFailed, hanswered.ended⟩
  · obtain ⟨more, hmore⟩ := hanswered.received
    have hmap : ((w.wire.callsOf i).map Call.response)[k]? = some response := by
      rw [← hmore, List.getElem?_append_left (List.getElem?_eq_some_iff.mp hk).1, hk]
    rw [List.getElem?_map] at hmap
    obtain ⟨call, hcall, rfl⟩ := Option.map_eq_some_iff.mp hmap
    refine ⟨call.request, ?_, h.handled i k call hcall⟩
    obtain ⟨more', hmore'⟩ := hanswered.requests
    have hlt : k < ((w.wire.callsOf i).map Call.request).length := by
      rw [List.length_map]
      exact (List.getElem?_eq_some_iff.mp hcall).1
    rw [← hmore', List.getElem?_append_left hlt, List.getElem?_map, hcall]
    rfl
  · obtain ⟨hsent, hreceived⟩ := hanswered.idle hidle
    rw [hsent, hreceived, List.length_map, List.length_map]

end Daemon

/-! ## §3. Runs. -/

end Cas.Syncing.Wire

namespace Cas.Syncing

open Cas.Lib Wire

/-! ## §4. The handlers of the server. -/

/-- How a request is handled. -/
def Request.shared : Request → SharedRequest
  | .ensureFileObject path md => .ensure path ⟨false, md⟩
  | .ensureFileObjectFromReal path md => .ensure path ⟨true, md⟩
  | .renameFile src dst => .move false src dst
  | .renameTree src dst => .move true src dst
  | .deleteWhiteout path => .whiteout path
  | req => .other req

/-- What `dispatch` has returned. -/
def SharedTask.answer : SharedTask → Option Response
  | .ensure _ ⟨_, .done response⟩ => some response
  | .move ⟨_, _, _, .done response⟩ => some response
  | .whiteout _ .done => some .deleteWhiteout
  | .answered response => some response
  | _ => none

/-- The steps of `dispatch` on the daemon's state. -/
def sharedHandlers : Handlers Server SharedTask DispatchEnv Empty where
  start req := req.shared.start
  advance := sharedStep
  outside d := d.elim
  answer := SharedTask.answer
  finished env s t h := by
    cases t with
    | ensure path t =>
      obtain ⟨req, phase⟩ := t
      cases phase with
      | done response => rfl
      | _ => cases h
    | move t =>
      obtain ⟨tree, src, dst, phase⟩ := t
      cases phase with
      | done response => rfl
      | _ => cases h
    | whiteout path phase =>
      cases phase with
      | done => rfl
      | _ => cases h
    | other req => cases h
    | answered response => rfl

/-- One step of a handler with the server to itself. -/
def SharedAlone (env : DispatchEnv) (a b : Server × SharedTask) : Prop :=
  sharedStep env a.1 a.2 = some b

theorem ensure_alone (env : DispatchEnv) (s : Server) (path : FsPath) (req : EnsureRequest) :
    Relation.ReflTransGen (SharedAlone env) (s, .ensure path ⟨req, .lookup⟩)
      ((dispatch env s (req.request path)).2,
        .ensure path ⟨req, .done (dispatch env s (req.request path)).1⟩) := by
  have hsteps := (ensureProtocol path).alone_reaches env 4 s ((ensureProtocol path).start req)
  rw [run_alone_eq_dispatch path env s req] at hsteps
  refine hsteps.lift (fun a : Server × EnsureTask => (a.1, SharedTask.ensure path a.2)) ?_
  intro a b hab
  have hstep : ensureStep path env a.1 a.2 = some b := hab
  show (ensureStep path env a.1 a.2).map _ = _
  rw [hstep]
  rfl

theorem move_alone (env : DispatchEnv) (s : Server) (tree : Bool) (src dst : FsPath) :
    Relation.ReflTransGen (SharedAlone env) (s, .move (moveStart tree src dst))
      ((dispatch env s (moveRequest tree src dst)).2,
        .move ⟨tree, src, dst, .done (dispatch env s (moveRequest tree src dst)).1⟩) := by
  refine (move_alone_eq_dispatch tree src dst env s).lift
    (fun a : Server × MoveTask => (a.1, SharedTask.move a.2)) ?_
  intro a b hab
  have hstep : moveStep a.1 a.2 = some b := hab
  show (moveStep a.1 a.2).map _ = _
  rw [hstep]
  rfl

theorem whiteout_alone (env : DispatchEnv) (s : Server) (path : FsPath) :
    Relation.ReflTransGen (SharedAlone env) (s, .whiteout path .look)
        ((s.deleteWhiteout path).2, .whiteout path .done) ∧
      (s.deleteWhiteout path).1 = .deleteWhiteout := by
  unfold Server.deleteWhiteout
  have hlook : ∀ phase, whiteoutStep path s .look = some (s, phase) →
      SharedAlone env (s, .whiteout path .look) (s, .whiteout path phase) := by
    intro phase h
    show (whiteoutStep path s .look).map _ = _
    rw [h]
    rfl
  cases he : s.state.fuseMap.lookup path with
  | none => exact ⟨.single (hlook .done (by simp only [whiteoutStep, he])), rfl⟩
  | some existing =>
    by_cases hwhite : existing.entryType = .whiteout
    · simp only [if_pos hwhite]
      have hremove := hlook .remove (by simp only [whiteoutStep, he, if_pos hwhite])
      exact ⟨.head hremove (.single rfl), trivial⟩
    · simp only [if_neg hwhite]
      have hdone := hlook .done (by simp only [whiteoutStep, he, if_neg hwhite])
      exact ⟨.single hdone, trivial⟩

/-- **A handler that nothing interrupts is `dispatch`.** -/
theorem shared_alone_eq_dispatch (env : DispatchEnv) (s : Server) (req : Request) :
    ∃ t, Relation.ReflTransGen (SharedAlone env) (s, sharedHandlers.start req)
        ((dispatch env s req).2, t) ∧ sharedHandlers.answer t = some (dispatch env s req).1 := by
  cases req with
  | ensureFileObject path md => exact ⟨_, ensure_alone env s path ⟨false, md⟩, rfl⟩
  | ensureFileObjectFromReal path md => exact ⟨_, ensure_alone env s path ⟨true, md⟩, rfl⟩
  | renameFile src dst => exact ⟨_, move_alone env s false src dst, rfl⟩
  | renameTree src dst => exact ⟨_, move_alone env s true src dst, rfl⟩
  | deleteWhiteout path =>
    obtain ⟨hsteps, hreply⟩ := whiteout_alone env s path
    exact ⟨_, hsteps, congrArg some hreply.symm⟩
  | _ => exact ⟨_, .single rfl, rfl⟩

/-- The acts of a client and its connection that bring a request of 15 bytes to the daemon. -/
def asks (i : ℕ) (req : Request) : List (DaemonAct DispatchEnv Empty) :=
  [.wire (.connect i), .wire (.move i (.issue req)), .wire (.move i (.clientWrite 15)),
    .wire (.move i (.taskRead 4)), .wire (.move i (.taskRead 11))]

/-- Those that bring a response of 26 bytes back. -/
def gets (i : ℕ) : List (DaemonAct DispatchEnv Empty) :=
  [.wire (.move i (.taskWrite 26)), .wire (.move i (.clientRead 4)),
    .wire (.move i (.clientRead 22)), .wire (.move i .clientReturn)]

/-- Two clients ask for an object of `/a`, and both handlers look it up before either inserts. -/
def ensureRace : List (DaemonAct DispatchEnv Empty) :=
  asks 0 (.ensureFileObject [.a] .zero) ++ asks 1 (.ensureFileObject [.a] .zero) ++
    [.handle 0, .handle 1, .advance 0 .quiet, .advance 1 .quiet, .advance 0 .quiet,
      .advance 0 .quiet, .advance 0 .quiet, .advance 1 .quiet, .advance 1 .quiet,
      .advance 1 .quiet, .respond 1, .respond 0] ++ gets 0 ++ gets 1

end Cas.Syncing
