import Orcashi.ReceiveGate
import Orcashi.StoreEffects

/-!
# Peers that are not heard from

The keepalive thread gives a peer up when `last_activity` is five intervals old.  `send_message`
writes that time as well, and the pass itself sends before it looks: a peer that is silent is given
up only if nothing can be sent to it.
-/

namespace Orcashi

open CMemory

/-! ## Who was heard when -/

/-- The node, and when the most recent datagram of each peer was received. -/
structure Watch where
  node : Node
  heard : NormId → Option Time

/-- A datagram is from the peer that has its address when the listener is done with it. -/
def watchStep (w : Watch) (l : Env × P2PCall) : Watch :=
  let node := p2pStep w.node l
  match l.2 with
  | .datagram sender _ _ =>
    match findAddr sender node.peers with
    | some c => ⟨node, Function.update w.heard c.val.id (some l.1.now)⟩
    | none => ⟨node, w.heard⟩
  | _ => ⟨node, w.heard⟩

/-- The most recent datagram of the peer is older than five intervals. -/
def Silent (w : Watch) (now : Time) (id : NormId) : Prop :=
  ∃ t, w.heard id = some t ∧ t < now - p2pKeepaliveInterval * 5

/-- No peer that is silent is ESTABLISHED. -/
def Detected (w : Watch) (now : Time) : Prop :=
  ∀ p ∈ w.node.peers, p.state = .established → ¬ Silent w now p.id

/-! ## A pass of the keepalive thread -/

/-- A record that is not given up keeps its id and its state. -/
theorem keepalivePeer_kept {env : Env} {p : P2PPeer} (alive : timesOut env p = false) (sh : Shared) :
    (keepalivePeer env p sh).peer.id = p.id ∧ (keepalivePeer env p sh).peer.state = p.state ∧
      (keepalivePeer env p sh).peer.udpSocket = p.udpSocket := by
  rcases keepalivePeer_cases env p sh with ⟨out, -⟩ | ⟨-, h | h⟩
  · rw [alive] at out
    cases out
  · rw [h]
    exact ⟨rfl, rfl, rfl⟩
  · rw [h]
    exact ⟨rfl, rfl, rfl⟩

theorem keepalivePeer_established {env : Env} {p : P2PPeer} {sh : Shared}
    (h : (keepalivePeer env p sh).peer.state = .established) : timesOut env p = false := by
  rcases keepalivePeer_cases env p sh with ⟨-, gone⟩ | ⟨alive, -⟩
  · rw [gone] at h
    cases h
  · exact alive

/-- Each silent peer that is ESTABLISHED was not sent to either for five intervals, and cannot be sent
to now. -/
def SilentBothWays (w : Watch) (env : Env) : Prop :=
  ∀ p ∈ w.node.peers, p.state = .established → Silent w env.now p.id →
    p2pKeepaliveInterval * 5 < env.now - p.lastActivity ∧ keepaliveSent env p = false

/-- A pass detects the silent peers exactly if all of them are silent both ways. -/
theorem detected_pass_iff (w : Watch) (env : Env) :
    Detected (watchStep w (env, .keepalive)) env.now ↔ SilentBothWays w env := by
  have out : ∀ p : P2PPeer, p.state = .established → (timesOut env p = true ↔
      p2pKeepaliveInterval * 5 < env.now - p.lastActivity ∧ keepaliveSent env p = false) := by
    intro p open_
    simp [timesOut, open_]
  constructor
  · intro detected p hp open_ silent
    rw [← out p open_]
    by_contra alive
    obtain ⟨sh, hp'⟩ := exists_mem_keepaliveLoop env hp w.node.shared
    obtain ⟨id, state, -⟩ := keepalivePeer_kept (Bool.not_eq_true _ ▸ alive) sh
    refine detected _ hp' (state.trans open_) ?_
    rw [id]
    exact silent
  · intro both p' hp' open_ silent
    obtain ⟨p, hp, sh, rfl⟩ := exists_of_mem_keepaliveLoop hp'
    have alive := keepalivePeer_established open_
    obtain ⟨id, state, -⟩ := keepalivePeer_kept alive sh
    rw [id] at silent
    rw [state] at open_
    rw [(out p open_).2 (both p hp open_ silent)] at alive
    cases alive

/-! ## Schedules -/

/-- Whatever is called, sent and received between the passes: after every pass no peer that has been
silent for five intervals is ESTABLISHED, exactly if before every pass all of those peers have been
silent both ways and the keepalive message cannot be sent to them. -/
theorem dead_peers_detected_iff (w : Watch) (ls : List (Env × P2PCall)) :
    History.Meets watchStep
        (fun w l => l.2 = .keepalive → Detected (watchStep w l) l.1.now) w ls ↔
      History.Meets watchStep (fun w l => l.2 = .keepalive → SilentBothWays w l.1) w ls := by
  apply History.meets_congr
  rintro w ⟨env, call⟩
  apply forall_congr'
  rintro rfl
  exact detected_pass_iff w env

/-- Where messages can be sent, a peer that is ESTABLISHED with a socket of its own is ESTABLISHED
after any number of passes, however late they are. -/
theorem never_given_up {node : Node} {p : P2PPeer} (hp : p ∈ node.peers)
    (established : p.state = .established) (socket : 0 ≤ p.udpSocket) {envs : List Env}
    (sends : ∀ env ∈ envs, ∀ fd datagram addr, env.sendto fd datagram addr = true) :
    ∃ p' ∈ (History.run (fun node env => keepaliveTick env node) node envs).peers,
      p'.id = p.id ∧ p'.state = .established := by
  induction envs generalizing node p with
  | nil => exact ⟨p, hp, rfl, established⟩
  | cons env envs ih =>
    have sent : keepaliveSent env p = true := by
      simp [keepaliveSent, socket, sends env List.mem_cons_self]
    have alive : timesOut env p = false := by simp [timesOut, sent]
    obtain ⟨sh, hp'⟩ := exists_mem_keepaliveLoop env hp node.shared
    obtain ⟨id, state, fd⟩ := keepalivePeer_kept alive sh
    have open_ : 0 ≤ (keepalivePeer env p sh).peer.udpSocket := by omega
    have after : (keepalivePeer env p sh).peer ∈ (keepaliveTick env node).peers := hp'
    obtain ⟨p', hp', same, still⟩ := ih after (state.trans established) open_ fun e he =>
      sends e (List.mem_cons_of_mem env he)
    exact ⟨p', hp', same.trans id, still⟩

/-- `bob` answers at time 0 and is never heard again; the pass at time 200 keeps him. -/
theorem dead_peer_kept :
    let w := History.run watchStep ⟨.init, fun _ => none⟩
      [(reachesBob, .connect (ascii "bob")), (reachesBob, datagramOf .handshakeResponse [1]),
        ({ reachesBob with now := 200 }, .keepalive)]
    w.heard (.of (ascii "bob")) = some 0 ∧ w.node.peers.map P2PPeer.state = [.established] ∧
      ¬ Detected w 200 := by
  intro w
  have heard : w.heard (.of (ascii "bob")) = some 0 := by decide
  have peers : w.node.peers.map (fun p => (p.id, p.state)) = [(.of (ascii "bob"), .established)] := by
    decide
  refine ⟨heard, by decide, fun detected => ?_⟩
  obtain ⟨p, hp, same⟩ := List.mem_map.1 (peers ▸ List.mem_singleton_self _)
  obtain ⟨id, established⟩ := Prod.mk.inj same
  exact detected p hp established ⟨0, id ▸ heard, by decide⟩

end Orcashi
