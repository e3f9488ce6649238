import SeminarTouhou.Network.ServerLaws

namespace SeminarTouhou

open Library

theorem deref_ok_iff {obj : Option GameObject} :
    (∃ o, deref obj = .ok o) ↔ ∃ o, obj = some o ∧ o.usable = true := by
  cases obj with
  | none => simp [deref]
  | some o => by_cases hu : o.usable = true <;> simp [deref, hu]

theorem finishEvents_ok_iff {context : ResultContext} {obj : Option GameObject} :
    (∃ events, finishEvents context obj = .ok events) ↔
      context = .playerDisconnected ∨ ∃ o, obj = some o ∧ o.usable = true := by
  cases context with
  | playerDisconnected => simp [finishEvents]
  | playerWon | playerDied =>
    rw [← deref_ok_iff]
    cases ho : deref obj <;> simp [finishEvents, ho, Except.map]

namespace ServerHandler

/-- A result whose processing throws leaves both tables, and with them the count that the end of
the game is told from. -/
def StoresAtomically (d : PlayerSendResultData) (s : ServerHandler) : Prop :=
  (s.handleReceivePlayerResult d).thrown ≠ none →
    (s.handleReceivePlayerResult d).state.mPlayerResults = s.mPlayerResults ∧
    (s.handleReceivePlayerResult d).state.mPlayers = s.mPlayers ∧
    (s.handleReceivePlayerResult d).state.checkIfGameFinished = s.checkIfGameFinished

/-- The sender can be taken down: it is in the roster and, unless it only disconnected, it has an
object. -/
def Finishable (d : PlayerSendResultData) (s : ServerHandler) : Prop :=
  ∃ p, s.mPlayers.lookup d.playerID = some p ∧
    (d.resultContext = .playerDisconnected ∨ ∃ o, p.playerOBJ = some o ∧ o.usable = true)

theorem finishable_iff {d : PlayerSendResultData} {s : ServerHandler} :
    s.Finishable d ↔ ∃ p events, s.mPlayers.lookup d.playerID = some p ∧
      finishEvents d.resultContext p.playerOBJ = .ok events := by
  constructor
  · rintro ⟨p, hp, h⟩
    obtain ⟨events, he⟩ := finishEvents_ok_iff.mpr h
    exact ⟨p, events, hp, he⟩
  · rintro ⟨p, events, hp, he⟩
    exact ⟨p, hp, finishEvents_ok_iff.mp ⟨events, he⟩⟩

theorem withResult_ne {s : ServerHandler} {k : UInt32} (h : k ∉ s.mPlayerResults)
    (r : PlayerStoredResultData) : (s.withResult k r).mPlayerResults ≠ s.mPlayerResults := by
  intro he
  apply h
  rw [← he]
  exact (AList.mem_insert _).mpr (Or.inl rfl)

theorem storing_atomic (d : PlayerSendResultData) (s : ServerHandler) :
    s.StoresAtomically d ↔ d.playerID ∈ s.mPlayerResults ∨ s.Finishable d := by
  rw [finishable_iff]
  rcases handleReceivePlayerResult_cases d s with
    ⟨hr, hs⟩ | ⟨hr, ⟨e, hs, hfail⟩ | ⟨p, events, hp, he, hs⟩⟩
  · refine iff_of_true ?_ (Or.inl hr)
    intro _
    rw [hs]
    exact ⟨rfl, rfl, rfl⟩
  · refine iff_of_false ?_ ?_
    · intro h
      rw [StoresAtomically, hs] at h
      exact withResult_ne hr _ (h nofun).1
    · rintro (hk | ⟨p, events, hp, he⟩)
      · exact hr hk
      · rcases hfail with hnew | ⟨q, hq, herror⟩
        · exact hnew (Dict.mem_of_lookup hp)
        · obtain rfl := Option.some.inj (hp.symm.trans hq)
          rw [he] at herror
          nomatch herror
  · refine iff_of_true ?_ (Or.inr ⟨p, events, hp, he⟩)
    intro h
    rw [hs] at h
    exact absurd rfl h

/-- The host has finished and a client has not; the result of a player that the server does not know
throws, is counted, and makes the results as many as the players. -/
theorem unknownResult_counted :
    let s : ServerHandler := { hosted with
      mPlayers := ((∅ : PlayerTable).insert 0 .hologram).insert 1 .hologram
      mPlayerResults := (∅ : Dict UInt32 PlayerStoredResultData).insert 0 ⟨"", 0, 0, 0, .playerDied⟩
      mGameState := .gameStarted }
    let d : PlayerSendResultData := ⟨1, 7, 0, 0, 0, .playerDied, ""⟩
    ¬ s.StoresAtomically d ∧ s.checkIfGameFinished = false ∧
      (s.handleReceivePlayerResult d).state.checkIfGameFinished = true := by
  refine ⟨?_, by decide +kernel, by decide +kernel⟩
  intro h
  have hthrown := h (by decide +kernel)
  exact absurd hthrown.2.2 (by decide +kernel)

end ServerHandler

end SeminarTouhou
