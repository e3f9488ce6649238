import SeminarTouhou.Network.InOrder

namespace SeminarTouhou

open Library

def Event.isSpawn : Event → Bool
  | .spawnOffensiveBomb _ _ => true
  | _ => false

def Packet.bombFirer : Packet → Option UInt32
  | .offensiveBombData d => some d.playerID
  | _ => none

theorem finishEvents_noSpawn {context : ResultContext} {obj : Option GameObject}
    {events : List Event} (h : finishEvents context obj = .ok events) :
    events.filter Event.isSpawn = [] := by
  apply List.filter_eq_nil_iff.mpr
  intro e he
  obtain ⟨pos, rfl | rfl⟩ := mem_finishEvents h he <;> exact Bool.false_ne_true

namespace ServerHandler

variable {s : ServerHandler}

theorem handleOffensiveBombData_quiet {d : OffensiveBombData}
    (h : (s.handleOffensiveBombData d).thrown = none) : s.mPlayers.showsHologram d.playerID = true ∧
      s.handleOffensiveBombData d = ⟨s, s.sendBombDataToAllOtherClients d.pos.toVector2 d.playerID,
        [.spawnOffensiveBomb d.playerID d.pos.toVector2], none⟩ := by
  unfold handleOffensiveBombData at h ⊢
  unfold PlayerTable.showsHologram
  cases hp : s.mPlayers.lookup d.playerID with
  | none => simp [hp] at h
  | some p =>
    cases ho : p.playerOBJ with
    | none => simp [hp, ho, deref] at h
    | some o =>
      by_cases hu : o.usable = true
      · cases hk : o.kind with
        | player => simp [hp, ho, deref, hu, hk] at h
        | hologram => simp [ho, deref, hu, hk]
      · simp [hp, ho, deref, hu] at h

def others (k : UInt32) (s : ServerHandler) : List Connection :=
  s.connectedClients.filter (fun c => c ≠ k)

theorem sendBomb_others (hs : s.server = true) (pos : Vector2) (k : UInt32) :
    s.sendBombDataToAllOtherClients pos k =
      (s.others k).map (fun c => (c, .offensiveBombData ⟨roomID, k, pos.toVector3⟩)) := by
  simp only [sendBombDataToAllOtherClients, hs, if_true, broadcastExcept, others]

theorem sendBomb_closed (hs : s.server = false) (pos : Vector2) (k : UInt32) :
    s.sendBombDataToAllOtherClients pos k = [] := by
  simp [sendBombDataToAllOtherClients, hs]

theorem mem_others {c k : UInt32} : c ∈ s.others k ↔ c ∈ s.connectedClients ∧ c ≠ k := by
  simp only [others, List.mem_filter, decide_eq_true_eq]

end ServerHandler

namespace HostSession

open ServerHandler

theorem bombs_act {a : HostAction} {s : ServerHandler} (hfire : ∀ pos, a ≠ .fireOffensiveBomb pos)
    (hread : ∀ c d, a ≠ .receive c (.offensiveBombData d)) (c : Connection) :
    (channel c (act a s).sent).filterMap Packet.bombFirer = [] := by
  apply List.filterMap_eq_nil_iff.mpr
  intro p hp
  have ht : Tells a s c p := tells_act (mem_channel.mp hp)
  cases ht with
  | position | finish => rfl
  | bomb d ha =>
    obtain ⟨pos, ha⟩ | ⟨b, e, ha⟩ := ha
    · exact absurd ha (hfire pos)
    · exact absurd ha (hread b e)
  | other p hnone =>
    cases p with
    | offensiveBombData d => nomatch hnone
    | _ => rfl

theorem spawns_act {a : HostAction} {s : ServerHandler}
    (hread : ∀ c d, a ≠ .receive c (.offensiveBombData d)) :
    (act a s).raised.filter Event.isSpawn = [] := by
  cases a with
  | statusCallback state c =>
    cases state with
    | connected =>
      simp only [act, serverStatusCallback, handlePlayerJoining]
      split_ifs <;> rfl
    | closedByPeer | problemDetectedLocally =>
      simp only [act, serverStatusCallback, handlePlayerLeaving]
      split
      · rfl
      · simp only [Outcome.raises_raised]
        split_ifs <;> rfl
  | levelLoaded position =>
    simp only [act, handleRegisterPlayer]
    split_ifs <;> rfl
  | sendPlayerResults r =>
    simp only [act, handleSendPlayerResults]
    split_ifs <;> rfl
  | receive c p =>
    cases p with
    | storePlayerResults d =>
      obtain ⟨-, hs⟩ | ⟨-, ⟨e, hs, -⟩ | ⟨q, events, -, he, hs⟩⟩ := handleReceivePlayerResult_cases d s
      · rw [act, receive, hs]
        rfl
      · rw [act, receive, hs]
        rfl
      · rw [act, receive, hs]
        exact finishEvents_noSpawn he
    | offensiveBombData d => exact absurd rfl (hread c d)
    | playerData | registerPlayer | playerCount | gameState | sendResult | otherPlayerFinish => rfl
  | endCheck b =>
    cases b with
    | false | true => rfl
  | broadcastResults =>
    simp only [act, ServerHandler.broadcastResults]
    split_ifs
    · apply List.filter_eq_nil_iff.mpr
      intro e he
      obtain ⟨d, -, rfl⟩ := List.mem_map.mp he
      exact Bool.false_ne_true
    · rfl
  | startGame | fireOffensiveBomb | sendPlayerData | broadcastPlayerCount | interpolate | movePlayer
  | destroyPlayer | unloadScene | endOfFrame => rfl

end HostSession

namespace ClientHandler

variable {s : ClientHandler}

theorem handleOffensiveBombData_quiet {d : OffensiveBombData}
    (h : (s.handleOffensiveBombData d).thrown = none) :
    (s.handleOffensiveBombData d).raised.filter Event.isSpawn =
      if s.mPlayers.showsHologram d.playerID then [.spawnOffensiveBomb d.playerID d.pos.toVector2]
      else [] := by
  unfold handleOffensiveBombData at h ⊢
  unfold PlayerTable.showsHologram
  cases hp : s.mPlayers.lookup d.playerID with
  | none => simp [hp] at h
  | some p =>
    cases ho : p.playerOBJ with
    | none => simp [ho]
    | some o =>
      by_cases hu : o.usable = true
      · cases hk : o.kind with
        | player => simp [hp, ho, hu, hk] at h
        | hologram => simp [ho, hu, hk, Event.isSpawn]
      · simp [ho, hu]

end ClientHandler

namespace ClientSession

open ClientHandler

theorem bombs_act {a : ClientAction} {s : ClientHandler} (hfire : ∀ pos, a ≠ .fireOffensiveBomb pos) :
    (act a s).sent.filterMap Packet.bombFirer = [] := by
  apply List.filterMap_eq_nil_iff.mpr
  intro p hp
  cases a with
  | fireOffensiveBomb pos => exact absurd rfl (hfire pos)
  | sendPlayerData =>
    obtain ⟨o, -, rfl⟩ := List.mem_map.mp hp
    rfl
  | sendPlayerResults r =>
    simp only [act, handleSendPlayerResults] at hp
    split_ifs at hp
    · obtain rfl := List.mem_singleton.mp hp
      rfl
    · exact absurd hp List.not_mem_nil
  | statusUpdate state connection =>
    cases state <;> exact absurd hp List.not_mem_nil
  | receive q =>
    have hr : Received s q (s.receive q) := received q s
    simp only [act] at hp
    generalize s.receive q = r at hr hp
    cases hr <;> exact absurd hp List.not_mem_nil
  | loadScene scene position =>
    simp only [act] at hp
    split_ifs at hp <;> exact absurd hp List.not_mem_nil
  | interpolate | movePlayer | destroyPlayer | endOfFrame => exact absurd hp List.not_mem_nil

theorem spawns_act {a : ClientAction} {s : ClientHandler}
    (hread : ∀ d, a ≠ .receive (.offensiveBombData d)) :
    (act a s).raised.filter Event.isSpawn = [] := by
  cases a with
  | statusUpdate state connection => cases state <;> rfl
  | receive p =>
    cases p with
    | offensiveBombData d => exact absurd rfl (hread d)
    | playerData d =>
      simp only [act, receive, handlePlayerData]
      split_ifs <;> rfl
    | registerPlayer d =>
      simp only [act, receive, handleRegisterPlayerPacket]
      split_ifs <;> rfl
    | gameState d =>
      simp only [act, receive, handleGameState]
      split <;> rfl
    | otherPlayerFinish d =>
      simp only [act, receive, handleOtherPlayerFinish]
      split
      · rfl
      · split
        · rfl
        · next he => exact finishEvents_noSpawn he
    | playerCount | sendResult | storePlayerResults => rfl
  | loadScene scene position =>
    simp only [act]
    split_ifs <;> rfl
  | sendPlayerResults r =>
    simp only [act, handleSendPlayerResults]
    split_ifs <;> rfl
  | fireOffensiveBomb | sendPlayerData | interpolate | movePlayer | destroyPlayer | endOfFrame => rfl

end ClientSession

end SeminarTouhou
