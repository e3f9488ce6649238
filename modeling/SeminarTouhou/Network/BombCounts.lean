import SeminarTouhou.Network.BombLaws
import SeminarTouhou.Network.InOrder
import SeminarTouhou.Network.Traffic

namespace SeminarTouhou

open Library

def Packet.isBomb (k : UInt32) (x : Vector2) : Packet → Bool
  | .offensiveBombData d => d.playerID = k ∧ d.pos.toVector2 = x
  | _ => false

section Counts

variable {k : UInt32} {x : Vector2}

theorem Packet.isBomb_iff {p : Packet} :
    p.isBomb k x = true ↔ ∃ d, p = .offensiveBombData d ∧ d.playerID = k ∧ d.pos.toVector2 = x := by
  cases p <;> simp [Packet.isBomb]

theorem isBomb_of_noFirer {ps : List Packet} (h : ps.filterMap Packet.bombFirer = []) {p : Packet}
    (hp : p ∈ ps) : ¬ p.isBomb k x = true := by
  intro hbomb
  obtain ⟨d, rfl, -⟩ := Packet.isBomb_iff.mp hbomb
  cases List.filterMap_eq_nil_iff.mp h _ hp

theorem spawns_none {events : List Event} (h : events.filter Event.isSpawn = []) :
    events.count (.spawnOffensiveBomb k x) = 0 := by
  rw [List.count_eq_zero]
  intro hmem
  exact absurd rfl (List.filter_eq_nil_iff.mp h _ hmem)

theorem spawns_single (d : OffensiveBombData) :
    [Event.spawnOffensiveBomb d.playerID d.pos.toVector2].count (.spawnOffensiveBomb k x) =
      if (Packet.offensiveBombData d).isBomb k x then 1 else 0 := by
  simp [List.count_singleton, Packet.isBomb]

def HostAction.firesBomb (k : UInt32) (x : Vector2) : HostAction → ℕ
  | .fireOffensiveBomb pos => if serverPlayerID = k ∧ pos = x then 1 else 0
  | _ => 0

namespace ServerHandler

variable {s : ServerHandler}

theorem bombs_passed (hn : s.connectedClients.Nodup) (pos : Vector2) (firer : UInt32) (c : Connection) :
    (s.sendBombDataToAllOtherClients pos firer).countP (fun e => e.1 = c ∧ e.2.isBomb k x) ≤
      if c = k then 0 else if firer = k ∧ pos = x then 1 else 0 := by
  cases hs : s.server with
  | false =>
    rw [s.sendBomb_closed hs]
    exact Nat.zero_le _
  | true =>
    rw [s.sendBomb_others hs, List.countP_map]
    by_cases hbomb : c ≠ k ∧ firer = k ∧ pos = x
    · rw [if_neg hbomb.1, if_pos hbomb.2]
      calc _ ≤ (s.others firer).count c := by
            rw [List.count]
            apply List.countP_mono_left
            intro d _ hd
            simpa using (of_decide_eq_true hd).1
        _ ≤ 1 := List.nodup_iff_count_le_one.mp (hn.filter _) c
    · refine (List.countP_eq_zero.mpr ?_).le.trans (Nat.zero_le _)
      intro d hd hmem
      obtain ⟨rfl, hp⟩ := of_decide_eq_true hmem
      obtain ⟨e, he, rfl, rfl⟩ := Packet.isBomb_iff.mp hp
      obtain rfl := Packet.offensiveBombData.inj he
      exact hbomb ⟨(mem_others.mp hd).2, rfl, rfl⟩

theorem handleOffensiveBombData_cases (d : OffensiveBombData) (s : ServerHandler) :
    (∃ e, s.handleOffensiveBombData d = .throws s e) ∨
      s.handleOffensiveBombData d = ⟨s, s.sendBombDataToAllOtherClients d.pos.toVector2 d.playerID,
        [.spawnOffensiveBomb d.playerID d.pos.toVector2], none⟩ := by
  unfold handleOffensiveBombData
  cases s.mPlayers.lookup d.playerID with
  | none => exact Or.inl ⟨_, rfl⟩
  | some p =>
    dsimp only
    cases deref p.playerOBJ with
    | error e => exact Or.inl ⟨e, rfl⟩
    | ok o =>
      dsimp only
      cases o.kind with
      | player => exact Or.inl ⟨_, rfl⟩
      | hologram => exact Or.inr rfl

end ServerHandler

namespace HostSession

open ServerHandler

theorem bombs_sent {s : ServerHandler} (hn : s.connectedClients.Nodup) (a : HostAction) (c : Connection) :
    (act a s).sent.countP (fun e => e.1 = c ∧ e.2.isBomb k x) ≤
      if c = k then 0 else a.firesBomb k x + a.readsOf (Packet.isBomb k x) := by
  by_cases hfire : ∃ pos, a = .fireOffensiveBomb pos
  · obtain ⟨pos, rfl⟩ := hfire
    exact bombs_passed hn pos serverPlayerID c
  by_cases hread : ∃ b d, a = .receive b (.offensiveBombData d)
  · obtain ⟨b, d, rfl⟩ := hread
    rw [act, receive]
    obtain ⟨e, he⟩ | he := handleOffensiveBombData_cases d s
    · rw [he]
      exact Nat.zero_le _
    · rw [he]
      simpa only [HostAction.firesBomb, HostAction.readsOf, Packet.isBomb, decide_eq_true_eq,
        Nat.zero_add] using bombs_passed hn d.pos.toVector2 d.playerID c
  · have hnone := bombs_act (s := s) (fun pos h => hfire ⟨pos, h⟩) (fun b d h => hread ⟨b, d, h⟩) c
    refine (List.countP_eq_zero.mpr ?_).le.trans (Nat.zero_le _)
    rintro ⟨d, p⟩ hmem hd
    obtain ⟨rfl, hp⟩ := of_decide_eq_true hd
    exact isBomb_of_noFirer hnone (mem_channel.mpr hmem) hp

theorem spawns_read (a : HostAction) (s : ServerHandler) :
    (act a s).raised.count (.spawnOffensiveBomb k x) ≤ a.readsOf (Packet.isBomb k x) := by
  by_cases hread : ∃ b d, a = .receive b (.offensiveBombData d)
  · obtain ⟨b, d, rfl⟩ := hread
    rw [act, receive]
    obtain ⟨e, he⟩ | he := handleOffensiveBombData_cases d s
    · rw [he]
      exact Nat.zero_le _
    · rw [he]
      exact (spawns_single d).le
  · rw [spawns_none (spawns_act (fun b d h => hread ⟨b, d, h⟩))]
    exact Nat.zero_le _

end HostSession

namespace ClientHandler

theorem handleOffensiveBombData_raised (d : OffensiveBombData) (s : ClientHandler) :
    (s.handleOffensiveBombData d).raised = [] ∨
      (s.handleOffensiveBombData d).raised = [.spawnOffensiveBomb d.playerID d.pos.toVector2] := by
  unfold handleOffensiveBombData
  cases s.mPlayers.lookup d.playerID with
  | none => exact Or.inl rfl
  | some p =>
    dsimp only
    cases p.playerOBJ with
    | none => exact Or.inl rfl
    | some o =>
      dsimp only
      split_ifs
      · cases o.kind with
        | player => exact Or.inl rfl
        | hologram => exact Or.inr rfl
      · exact Or.inl rfl

end ClientHandler

namespace ClientSession

open ClientHandler

def firesBomb (k : UInt32) (x : Vector2) (s : ClientHandler) : ClientAction → ℕ
  | .fireOffensiveBomb pos => if s.connectionIDOnServer = k ∧ pos = x then 1 else 0
  | _ => 0

theorem bombs_sent (a : ClientAction) (s : ClientHandler) :
    (act a s).sent.countP (Packet.isBomb k x) ≤ firesBomb k x s a := by
  by_cases hfire : ∃ pos, a = .fireOffensiveBomb pos
  · obtain ⟨pos, rfl⟩ := hfire
    rw [act, sendBombData]
    cases s.ownPlayer with
    | none => exact Nat.zero_le _
    | some o =>
      have hpos : pos.toVector3.toVector2 = pos := rfl
      simp [firesBomb, Packet.isBomb, hpos]
  · have hnone := bombs_act (s := s) (fun pos h => hfire ⟨pos, h⟩)
    refine (List.countP_eq_zero.mpr ?_).le.trans (Nat.zero_le _)
    exact fun p hmem => isBomb_of_noFirer hnone hmem

end ClientSession

namespace World

/-- How many bombs of player `k` at `x` a step fires, at whatever node. -/
def firesBomb (k : UInt32) (x : Vector2) (w : World) : WorldAction → ℕ
  | .host a => a.firesBomb k x
  | .client c a => ClientSession.firesBomb k x (w.clients c).handler a
  | _ => 0

/-- How many of them it puts up at node `n`: at the host, or on a connection. -/
def showsBomb (n : Option Connection) (k : UInt32) (x : Vector2) (w : World) : WorldAction → ℕ
  | .host a =>
    if n = none then (HostSession.act a w.host.handler).raised.count (.spawnOffensiveBomb k x) else 0
  | .client c a =>
    if n = some c then
      (ClientSession.act a (w.clients c).handler).raised.count (.spawnOffensiveBomb k x)
    else 0
  | _ => 0

variable {w : World}

theorem showsBomb_host (w : World) (a : WorldAction) :
    w.showsBomb none k x a ≤ w.readUp (Packet.isBomb k x) a := by
  cases a with
  | host a => exact HostSession.spawns_read a w.host.handler
  | client | loseToServer | loseToClient => exact Nat.zero_le _

theorem showsBomb_client (c : Connection) (w : World) (a : WorldAction) :
    w.showsBomb (some c) k x a ≤ w.readAt c (Packet.isBomb k x) a := by
  cases a with
  | host | loseToServer | loseToClient => exact Nat.zero_le _
  | client b a =>
    by_cases hb : b = c
    · subst hb
      simp only [showsBomb, if_true]
      by_cases hread : ∃ d, a = .receive (.offensiveBombData d)
      · obtain ⟨d, rfl⟩ := hread
        simp only [readAt, true_and]
        obtain h | h := (w.clients b).handler.handleOffensiveBombData_raised d
        · rw [ClientSession.act, ClientHandler.receive, h]
          exact Nat.zero_le _
        · rw [ClientSession.act, ClientHandler.receive, h]
          exact (spawns_single d).le
      · rw [spawns_none (ClientSession.spawns_act (fun d h => hread ⟨d, h⟩))]
        exact Nat.zero_le _
    · simp [showsBomb, Ne.symm hb]

theorem sentUp_fires (w : World) (a : WorldAction) :
    w.sentUp (Packet.isBomb k x) a ≤ w.firesBomb k x a := by
  cases a with
  | client c a => exact ClientSession.bombs_sent a (w.clients c).handler
  | host | loseToServer | loseToClient => exact Nat.zero_le _

theorem sentTo_fires (h : HostSession.Roster w.host) (c : Connection) (a : WorldAction) :
    w.sentTo c (Packet.isBomb k x) a + w.sentUp (Packet.isBomb k x) a ≤
      w.firesBomb k x a + w.readUp (Packet.isBomb k x) a := by
  cases a with
  | host a =>
    have hsent := HostSession.bombs_sent (k := k) (x := x) h.nodup a c
    simp only [sentTo, sentUp, firesBomb, readUp]
    split_ifs at hsent <;> omega
  | client b a =>
    have hsent := sentUp_fires (k := k) (x := x) w (.client b a)
    simp only [sentTo]
    omega
  | loseToServer | loseToClient => exact le_refl _

theorem sentTo_own (h : HostSession.Roster w.host) (c : Connection) (a : WorldAction) :
    w.sentTo c (Packet.isBomb c x) a = 0 := by
  cases a with
  | host a =>
    have hsent := HostSession.bombs_sent (k := c) (x := x) h.nodup a c
    rw [if_pos rfl] at hsent
    exact Nat.le_zero.mp hsent
  | client | loseToServer | loseToClient => rfl

end World

end Counts

namespace World

/-- In a session with losses and in any order, no bomb is doubled: each node puts up at most as many
bombs of a player at a place as that player has fired there, and a client none of its own. -/
theorem bombs_not_doubled {as : List WorldAction} (hl : system.Legal start as) :
    (∀ n k x, system.total (showsBomb n k x) start as ≤ system.total (firesBomb k x) start as) ∧
      ∀ k x, system.total (showsBomb (some k) k x) start as = 0 := by
  have hkeep : ∀ w a, HostSession.Roster w.host → system.enabled w a →
      HostSession.Roster (system.next w a).host := fun _ _ h he => roster_next h he
  have hroster := HostSession.start_roster
  have hread (c k : UInt32) (x : Vector2) : system.total (showsBomb (some c) k x) start as ≤
      system.total (sentTo c (Packet.isBomb k x)) start as :=
    (System.total_mono hkeep (fun w a _ _ => showsBomb_client c w a) hroster hl).trans
      (total_readAt c (Packet.isBomb k x) hl)
  refine ⟨?_, ?_⟩
  · intro n k x
    have hup := total_readUp (Packet.isBomb k x) hl
    cases n with
    | none =>
      have hshown := System.total_mono (v := readUp (Packet.isBomb k x)) hkeep
        (fun w a _ _ => showsBomb_host (k := k) (x := x) w a) hroster hl
      have hfired := System.total_mono (v := firesBomb k x) hkeep
        (fun w a _ _ => sentUp_fires (k := k) (x := x) w a) hroster hl
      omega
    | some c =>
      have hshown := hread c k x
      have hpassed := System.total_mono hkeep
        (fun w a h _ => sentTo_fires (k := k) (x := x) h c a) hroster hl
      rw [System.total_add, System.total_add] at hpassed
      omega
  · intro k x
    have hshown := hread k k x
    have hnone := System.total_eq_zero hkeep (fun w a h _ => sentTo_own (x := x) h k a) hroster hl
    omega

/-- The host fires twice at one place; the packet of one of the bombs is lost. -/
def hostBombs : List WorldAction :=
  twoJoin ++ [.host (.fireOffensiveBomb ⟨1, 2⟩), .host (.fireOffensiveBomb ⟨1, 2⟩),
    .loseToClient (1, .offensiveBombData ⟨1, 0, ⟨1, 2, 0⟩⟩),
    .client 1 (.receive (.offensiveBombData ⟨1, 0, ⟨1, 2, 0⟩⟩))]

theorem bombs_not_doubled_hostBombs :
    system.total (firesBomb 0 ⟨1, 2⟩) start hostBombs = 2 ∧
      system.total (showsBomb (some 1) 0 ⟨1, 2⟩) start hostBombs = 1 ∧
        (∀ n k x, system.total (showsBomb n k x) start hostBombs ≤
          system.total (firesBomb k x) start hostBombs) ∧
        ∀ k x, system.total (showsBomb (some k) k x) start hostBombs = 0 :=
  ⟨by decide +kernel, by decide +kernel, bombs_not_doubled (by decide +kernel)⟩

end World

end SeminarTouhou
