import SeminarTouhou.Network.ClientHandler
import SeminarTouhou.Network.EndOfGame

namespace SeminarTouhou

open Library PlayerTable

variable {region : Set Vector3} {P : PlayerGameData → Prop}

theorem GameObject.moveTo_mem {pos : Vector3} (h : pos ∈ region) {o : GameObject}
    (ho : o.position ∈ region) : (if o.kind = .player then o.moveTo pos else o).position ∈ region := by
  split_ifs
  · exact h
  · exact ho

namespace HostSession

open ServerHandler

/-- The positions that an action puts a player at are in the region. -/
def Places (region : Set Vector3) : HostAction → Prop
  | .levelLoaded position => position ∈ region
  | .movePlayer position => position ∈ region
  | .receive _ (.playerData d) => d.pos ∈ region
  | _ => True

theorem places_univ (a : HostAction) : Places Set.univ a := by
  cases a with
  | receive _ p => cases p <;> trivial
  | _ => trivial

theorem every_act (hP : EntryInvariant region P) (hprefab : GameObject.hologram.position ∈ region)
    {a : HostAction} (ha : Places region a) {s : ServerHandler} (hi : s.mPlayers.Every P) :
    (act a s).state.mPlayers.Every P := by
  cases a with
  | statusCallback state c =>
    cases state with
    | connected =>
      simp only [act, serverStatusCallback, handlePlayerJoining]
      split_ifs
      · exact hi
      · exact hi.insert (hP.fresh (fun _ ho => absurd ho (Option.some_ne_none _).symm))
    | closedByPeer | problemDetectedLocally =>
      change (closing c s).mPlayers.Every P
      rcases closing_cases c s with ⟨-, he⟩ | ⟨p, hp, he⟩
      · rwa [he]
      · rw [he]
        dsimp only
        split_ifs
        · exact hi.insert (hP.onObject (fun _ ho => ho) (hi c p hp))
        · exact hi.erase c
  | levelLoaded position =>
    have hholograms : Dict.Every P (Dict.mapValues (fun _ _ => PlayerGameData.hologram) s.mPlayers) :=
      Dict.Every.mapValues (fun _ _ _ => entry_hologram hP hprefab)
    simp only [act, handleRegisterPlayer]
    split_ifs
    · exact hholograms
    · apply hholograms.insert
      apply hP.fresh
      intro o ho
      obtain rfl := Option.some.inj ho
      exact ha
    · exact hi
  | sendPlayerResults r =>
    simp only [act, handleSendPlayerResults]
    split_ifs
    · exact hi
    · simpa using hi
  | receive c p =>
    simp only [act]
    rcases receive_state p s with he | ⟨d, rfl, he⟩ | ⟨d, -, -, he | ⟨q, -, he, hq⟩⟩
    · rwa [he]
    · rw [he]
      exact every_handlePlayerData hP hprefab ha hi
    · rwa [he]
    · rw [he, handleGameEndCheck_players]
      exact hi.insert (hP.noObject (hi _ q hq))
  | endCheck b => cases b <;> exact hi
  | broadcastResults =>
    simp only [act, ServerHandler.broadcastResults]
    split_ifs <;> exact hi
  | interpolate deltaTime => exact every_interpolateKeys hP _ _ hi
  | movePlayer position => exact every_onObjects hP hi (fun _ ho => GameObject.moveTo_mem ha ho)
  | destroyPlayer =>
    apply every_onObjects hP hi
    intro o ho
    split_ifs <;> exact ho
  | unloadScene | endOfFrame => exact every_onObjects hP hi (fun _ ho => ho)
  | startGame | fireOffensiveBomb | sendPlayerData | broadcastPlayerCount => exact hi

end HostSession

namespace ClientSession

open ClientHandler

def Places (region : Set Vector3) : ClientAction → Prop
  | .loadScene _ position => position ∈ region
  | .movePlayer position => position ∈ region
  | .receive (.playerData d) => d.pos ∈ region
  | _ => True

theorem places_univ (a : ClientAction) : Places Set.univ a := by
  cases a with
  | receive p => cases p <;> trivial
  | _ => trivial

theorem every_receive (hP : EntryInvariant region P)
    (hprefab : GameObject.hologram.position ∈ region) {p : Packet}
    (ha : Places region (.receive p)) {s : ClientHandler} (hi : s.mPlayers.Every P) :
    (s.receive p).state.mPlayers.Every P := by
  cases p with
  | playerData d =>
    simp only [receive, ClientHandler.handlePlayerData]
    split_ifs
    · exact hi
    · exact every_handlePlayerData hP hprefab ha hi
  | registerPlayer d =>
    simp only [receive, handleRegisterPlayerPacket]
    split_ifs
    · exact hi
    · exact hi.insert (hP.fresh (fun _ ho => absurd ho (Option.some_ne_none _).symm))
  | otherPlayerFinish d =>
    simp only [receive, handleOtherPlayerFinish]
    split
    · exact hi
    · next p hp =>
      split
      · exact hi
      · exact hi.insert (hP.noObject (hi _ p hp))
  | offensiveBombData d =>
    simp only [receive, handleOffensiveBombData]
    repeat' split
    all_goals exact hi
  | gameState d =>
    obtain ⟨room, e⟩ := d
    cases e <;> exact hi
  | playerCount | storePlayerResults | sendResult => exact hi

theorem every_act (hP : EntryInvariant region P) (hprefab : GameObject.hologram.position ∈ region)
    {a : ClientAction} (ha : Places region a) {s : ClientHandler} (hi : s.mPlayers.Every P) :
    (act a s).state.mPlayers.Every P := by
  cases a with
  | receive p => exact every_receive hP hprefab ha hi
  | loadScene scene position =>
    have hunload : (s.onObjects .unload).mPlayers.Every P := every_onObjects hP hi (fun _ ho => ho)
    simp only [act]
    split_ifs
    · refine Dict.Every.insert (Dict.Every.mapValues ?_) (hP.fresh ?_)
      · intro k p hp
        split_ifs
        · exact hunload k p hp
        · exact entry_hologram hP hprefab
      · intro o ho
        obtain rfl := Option.some.inj ho
        exact ha
    · exact hunload
  | interpolate deltaTime => exact every_interpolateKeys hP _ _ hi
  | movePlayer position => exact every_onObjects hP hi (fun _ ho => GameObject.moveTo_mem ha ho)
  | destroyPlayer =>
    apply every_onObjects hP hi
    intro o ho
    split_ifs <;> exact ho
  | endOfFrame => exact every_onObjects hP hi (fun _ ho => ho)
  | statusUpdate state connection => cases state <;> exact hi
  | sendPlayerResults r =>
    simp only [act, ClientHandler.handleSendPlayerResults]
    split_ifs <;> exact hi
  | fireOffensiveBomb | sendPlayerData => exact hi

end ClientSession

end SeminarTouhou
