import SeminarTouhou.Network.ClientLaws

namespace SeminarTouhou

open Library

namespace ClientSession

open PlayerTable

inductive Entry (s : ClientHandler) (k : UInt32) :
    ClientAction → Option (Option (Prefab × Life)) → Prop
  | same (a : ClientAction) (ha : ∀ scene position, a ≠ .loadScene scene position) :
    Entry s k a (s.mPlayers.status k)
  | met (d : PlayerData) (hk : k = d.playerID) (hown : k ≠ s.connectionIDOnServer)
    (hnew : k ∉ s.mPlayers) : Entry s k (.receive (.playerData d)) (some (some (.hologram, .alive)))
  | registered (d : RegisterPlayer) (hk : k = d.playerID) (hnew : k ∉ s.mPlayers) :
    Entry s k (.receive (.registerPlayer d)) (some none)
  | finished (d : OtherClientFinishState) (hk : k = d.playerID) (hold : k ∈ s.mPlayers) :
    Entry s k (.receive (.otherPlayerFinish d)) (some none)
  | own (position : Vector3) (hk : k = s.connectionIDOnServer) :
    Entry s k (.loadScene 4 position) (some (some (.player, .alive)))
  | rebuilt (position : Vector3) (hk : k ≠ s.connectionIDOnServer) (hold : k ∈ s.mPlayers) :
    Entry s k (.loadScene 4 position) (some (some (.hologram, .alive)))
  | absent (scene : ℕ) (position : Vector3) (hnew : k ∉ s.mPlayers) :
    Entry s k (.loadScene scene position) none
  | unloaded (scene : ℕ) (position : Vector3) (hscene : scene ≠ 4) (x : Option (Prefab × Life))
    (hold : s.mPlayers.status k = some x) :
    Entry s k (.loadScene scene position) (some (x.map (fun y => (y.1, .destroyed))))
  | aged (a : ClientAction) (kind : Prefab) (life life' : Life)
    (hold : s.mPlayers.status k = some (some (kind, life)))
    (hlife : kind = .hologram → life = .alive → life' = .alive)
    (ha : ∀ scene position, a ≠ .loadScene scene position)
    (hdead : life = .destroyed → life' = .destroyed) : Entry s k a (some (some (kind, life')))

theorem entry_onObjects {s : ClientHandler} {k : UInt32} {a : ClientAction}
    (ha : ∀ scene position, a ≠ .loadScene scene position) {f : GameObject → GameObject}
    (hkind : ∀ o, (f o).kind = o.kind)
    (hlife : ∀ o, o.kind = .hologram → o.life = .alive → (f o).life = .alive)
    (hdead : ∀ o, o.life = .destroyed → (f o).life = .destroyed) :
    Entry s k a ((s.mPlayers.onObjects f).status k) := by
  cases hp : s.mPlayers.lookup k with
  | none =>
    have hsame : (s.mPlayers.onObjects f).status k = s.mPlayers.status k := by
      simp [PlayerTable.status, PlayerTable.onObjects, hp]
    rw [hsame]
    exact .same a ha
  | some p =>
    cases ho : p.playerOBJ with
    | none =>
      have hsame : (s.mPlayers.onObjects f).status k = s.mPlayers.status k := by
        simp [PlayerTable.status, PlayerTable.onObjects, hp, PlayerGameData.status,
          PlayerGameData.onObject, ho]
      rw [hsame]
      exact .same a ha
    | some o =>
      have hnew : (s.mPlayers.onObjects f).status k = some (some (o.kind, (f o).life)) := by
        simp [PlayerTable.status, PlayerTable.onObjects, hp, PlayerGameData.status,
          PlayerGameData.onObject, ho, hkind]
      rw [hnew]
      refine .aged a o.kind o.life _ ?_ (hlife o) ha (hdead o)
      simp [PlayerTable.status, hp, PlayerGameData.status, ho]

theorem entry_receive (p : Packet) (s : ClientHandler) (k : UInt32) :
    Entry s k (.receive p) ((act (.receive p) s).state.mPlayers.status k) := by
  have hp : ∀ scene position, ClientAction.receive p ≠ .loadScene scene position := fun _ _ => nofun
  cases p with
  | playerData d =>
    simp only [act, ClientHandler.receive, ClientHandler.handlePlayerData]
    split_ifs with hown
    · exact .same _ hp
    · by_cases hd : d.playerID ∈ s.mPlayers
      · simp only [handlePlayerData_known hd k]
        exact .same _ hp
      · by_cases hk : k = d.playerID
        · have hnew : (s.mPlayers.handlePlayerData d).1.status k = some (some (.hologram, .alive)) := by
            rw [hk]
            exact handlePlayerData_new hd
          rw [hnew]
          exact .met d hk (hk ▸ hown) (hk ▸ hd)
        · simp only [PlayerTable.status, handlePlayerData_other hk]
          exact .same _ hp
  | registerPlayer d =>
    simp only [act, ClientHandler.receive, ClientHandler.handleRegisterPlayerPacket]
    split_ifs with hd
    · exact .same _ hp
    · by_cases hk : k = d.playerID
      · subst hk
        rw [Outcome.returns_state, status_insert]
        exact .registered d rfl hd
      · rw [Outcome.returns_state, status_insert_ne hk]
        exact .same _ hp
  | otherPlayerFinish d =>
    simp only [act, ClientHandler.receive, ClientHandler.handleOtherPlayerFinish]
    split
    · exact .same _ hp
    · next q hq =>
      split
      · exact .same _ hp
      · by_cases hk : k = d.playerID
        · subst hk
          rw [Outcome.raises_state, status_insert]
          exact .finished d rfl (Dict.mem_of_lookup hq)
        · rw [Outcome.raises_state, status_insert_ne hk]
          exact .same _ hp
  | offensiveBombData d =>
    simp only [act, ClientHandler.receive, ClientHandler.handleOffensiveBombData]
    repeat' split
    all_goals exact .same _ hp
  | gameState d =>
    obtain ⟨room, e⟩ := d
    cases e <;> exact .same _ hp
  | playerCount | storePlayerResults | sendResult => exact .same _ hp

theorem entry_loadScene (scene : ℕ) (position : Vector3) (s : ClientHandler) (k : UInt32) :
    Entry s k (.loadScene scene position)
      ((act (.loadScene scene position) s).state.mPlayers.status k) := by
  by_cases hscene : scene = 4
  · subst hscene
    have hlevel : (act (.loadScene 4 position) s).state.mPlayers.status k =
        if k = s.connectionIDOnServer then some (some (.player, .alive))
        else (s.mPlayers.lookup k).map (fun _ => some (.hologram, .alive)) := by
      by_cases hk : k = s.connectionIDOnServer
      · simp [act, ClientHandler.handleRegisterPlayer, ClientHandler.onObjects, hk,
          PlayerGameData.status]
      · cases hp : s.mPlayers.lookup k <;>
          simp [act, ClientHandler.handleRegisterPlayer, ClientHandler.onObjects, hk,
            PlayerTable.status, PlayerTable.onObjects, hp]
    rw [hlevel]
    split_ifs with hk
    · exact .own position hk
    · cases hp : s.mPlayers.lookup k with
      | none => exact .absent 4 position (AList.lookup_eq_none.mp hp)
      | some p => exact .rebuilt position hk (Dict.mem_of_lookup hp)
  · simp only [act, if_neg hscene, ClientHandler.onObjects, Outcome.returns_state]
    cases hp : s.mPlayers.lookup k with
    | none =>
      simp only [PlayerTable.status, PlayerTable.onObjects, Dict.lookup_mapValues, hp, Option.map_none]
      exact .absent scene position (AList.lookup_eq_none.mp hp)
    | some p =>
      have hold : s.mPlayers.status k = some p.status := by simp [PlayerTable.status, hp]
      have hnew : (s.mPlayers.onObjects .unload).status k =
          some (p.status.map (fun y => (y.1, .destroyed))) := by
        cases ho : p.playerOBJ <;> simp [PlayerTable.status, PlayerTable.onObjects, hp,
          PlayerGameData.onObject, PlayerGameData.status, ho, GameObject.unload]
      rw [hnew]
      exact .unloaded scene position hscene p.status hold

theorem entry_act (a : ClientAction) (s : ClientHandler) (k : UInt32) :
    Entry s k a ((act a s).state.mPlayers.status k) := by
  cases a with
  | receive p => exact entry_receive p s k
  | loadScene scene position => exact entry_loadScene scene position s k
  | interpolate deltaTime =>
    have hsame : (act (.interpolate deltaTime) s).state.mPlayers.status k = s.mPlayers.status k :=
      interpolateKeys_status deltaTime _ s.mPlayers k
    rw [hsame]
    exact .same _ (by rintro _ _ ⟨⟩)
  | movePlayer position =>
    refine entry_onObjects (a := .movePlayer position) (by rintro _ _ ⟨⟩) ?_ ?_ ?_
    · intro o
      split_ifs <;> rfl
    · intro o hkind hlife
      simpa [hkind] using hlife
    · intro o hlife
      split_ifs <;> exact hlife
  | destroyPlayer =>
    refine entry_onObjects (a := .destroyPlayer) (by rintro _ _ ⟨⟩) ?_ ?_ ?_
    · intro o
      split_ifs <;> rfl
    · intro o hkind hlife
      simpa [hkind] using hlife
    · intro o hlife
      split_ifs
      · simp [GameObject.destroy, hlife, Life.destroy]
      · exact hlife
  | endOfFrame =>
    refine entry_onObjects (a := .endOfFrame) (by rintro _ _ ⟨⟩) GameObject.endOfFrame_kind
      (fun o _ => GameObject.endOfFrame_alive) ?_
    intro o hlife
    simp [GameObject.endOfFrame, hlife, Life.endOfFrame]
  | statusUpdate state connection => cases state <;> exact .same _ (by rintro _ _ ⟨⟩)
  | sendPlayerResults r =>
    simp only [act, ClientHandler.handleSendPlayerResults]
    split_ifs <;> exact .same _ (by rintro _ _ ⟨⟩)
  | fireOffensiveBomb | sendPlayerData => exact .same _ (by rintro _ _ ⟨⟩)

end ClientSession

end SeminarTouhou
