import SeminarTouhou.Network.PhaseAgreement
import SeminarTouhou.UI.Ranking

namespace SeminarTouhou

open Library

/-- The world with what the results screens show: `hostBoard` and `boards` are there while the
results scene is loaded at the node. `reported` says what each player's own game handed over when
that player had won or died. -/
structure BoardSession where
  world : World
  hostBoard : Option ResultsDisplay
  boards : Connection → Option ResultsDisplay
  reported : List (UInt32 × PlayerStoredResultData)

def Event.result : Event → Option PlayerSendResultData
  | .registerOtherPlayerResult d => some d
  | _ => none

def ResultsDisplay.hears (events : List Event) (d : ResultsDisplay) : ResultsDisplay :=
  ResultsDisplay.system.run d (events.filterMap Event.result)

namespace BoardSession

variable (texts : String × String × String)

def emptyBoard : ResultsDisplay := .start texts.1 texts.2.1 texts.2.2

def start : BoardSession := ⟨.start, none, fun _ => none, []⟩

/-- At the host the level is unloaded where the results scene is loaded. -/
def hostBoardAfter (s : BoardSession) : WorldAction → Option ResultsDisplay
  | .host .unloadScene => some (emptyBoard texts)
  | .host a => s.hostBoard.map (.hears (HostSession.act a s.world.host.handler).raised)
  | _ => s.hostBoard

def boardAfter (s : BoardSession) (c : Connection) : ClientAction → Option ResultsDisplay
  | .loadScene scene _ => if scene = 5 then some (emptyBoard texts) else none
  | a => (s.boards c).map (.hears (ClientSession.act a (s.world.clients c).handler).raised)

def boardsAfter (s : BoardSession) : WorldAction → Connection → Option ResultsDisplay
  | .client c a => Function.update s.boards c (s.boardAfter texts c a)
  | _ => s.boards

def reportedAfter (s : BoardSession) : WorldAction → List (UInt32 × PlayerStoredResultData)
  | .host (.sendPlayerResults r) => (serverPlayerID, r) :: s.reported
  | .client c (.sendPlayerResults r) => (c, r) :: s.reported
  | _ => s.reported

def next (s : BoardSession) (a : WorldAction) : BoardSession :=
  ⟨s.world.next a, s.hostBoardAfter texts a, s.boardsAfter texts a, s.reportedAfter a⟩

def system : System BoardSession WorldAction := ⟨fun s a => s.world.Enabled a, next texts⟩

instance (s : BoardSession) (a : WorldAction) : Decidable ((system texts).enabled s a) :=
  inferInstanceAs (Decidable (s.world.Enabled a))

def board (s : BoardSession) : Option Connection → Option ResultsDisplay
  | none => s.hostBoard
  | some c => s.boards c

def shown (s : BoardSession) (n : Option Connection) : List PlayerSendResultData :=
  ((s.board n).map ResultsDisplay.results).getD []

def table (s : BoardSession) : Dict UInt32 PlayerStoredResultData :=
  s.world.host.handler.mPlayerResults

theorem mem_shown {s : BoardSession} {n : Option Connection} {r : PlayerSendResultData} :
    r ∈ s.shown n ↔ ∃ d, s.board n = some d ∧ r ∈ d.results := by
  unfold shown
  cases s.board n <;> simp

end BoardSession

namespace ResultsDisplay

variable {d : ResultsDisplay} {q r : PlayerSendResultData}

theorem mem_insertResult (h : q.playerID ∉ d.mStoredIDs) :
    r ∈ (d.insertResult q).results ↔ r = q ∨ r ∈ d.results := by
  have hres : (d.insertResult q).results = place (fun r => r.score) q d.results := by
    rw [results, (insertResult_new h).1, results_place, newResult_data]
  rw [hres, (perm_place q d.results).mem_iff, List.mem_cons]

theorem of_mem_insertResult (h : r ∈ (d.insertResult q).results) : r = q ∨ r ∈ d.results := by
  by_cases hk : q.playerID ∈ d.mStoredIDs
  · rw [insertResult_known hk] at h
    exact Or.inr h
  · exact (mem_insertResult hk).mp h

theorem insertResult_keeps (q : PlayerSendResultData) (h : r ∈ d.results) :
    r ∈ (d.insertResult q).results := by
  by_cases hk : q.playerID ∈ d.mStoredIDs
  · rwa [insertResult_known hk]
  · exact (mem_insertResult hk).mpr (Or.inr h)

/-- The rows and the stored ids speak of the same players, each of them once and by falling score. -/
structure Consistent (d : ResultsDisplay) : Prop where
  ids : ∀ id, id ∈ d.mStoredIDs ↔ id ∈ d.results.map (fun r => r.playerID)
  nodup : (d.results.map (fun r => r.playerID)).Nodup
  ranked : Ranked (fun r => r.score) d.results

theorem start_consistent (first second third : String) : (start first second third).Consistent :=
  ⟨fun _ => Iff.rfl, List.nodup_nil, List.Pairwise.nil⟩

theorem Consistent.insertResult (h : d.Consistent) (q : PlayerSendResultData) :
    (d.insertResult q).Consistent := by
  by_cases hk : q.playerID ∈ d.mStoredIDs
  · rwa [insertResult_known hk]
  · have hres : (d.insertResult q).results = place (fun r => r.score) q d.results := by
      rw [results, (insertResult_new hk).1, results_place, newResult_data]
    have hplace : (place (fun r : PlayerSendResultData => r.score) q d.results).Perm (q :: d.results) :=
      perm_place q d.results
    have hperm := hplace.map (fun r => r.playerID)
    constructor
    · intro id
      rw [(insertResult_stored hk).1, hres, hperm.mem_iff, List.mem_append, List.mem_singleton,
        List.map_cons, List.mem_cons, h.ids, or_comm]
    · rw [hres, hperm.nodup_iff, List.map_cons]
      exact List.nodup_cons.mpr ⟨fun hmem => hk ((h.ids _).mpr hmem), h.nodup⟩
    · rw [hres]
      exact h.ranked.place q

theorem Consistent.hears (h : d.Consistent) (events : List Event) : (d.hears events).Consistent :=
  System.invariant_always (fun _ q h => h.insertResult q) h _

theorem hears_keeps (events : List Event) (h : r ∈ d.results) : r ∈ (d.hears events).results :=
  System.invariant_always (M := system) (I := fun e : ResultsDisplay => r ∈ e.results)
    (fun _ q h => insertResult_keeps q h) h _

theorem of_mem_hears {events : List Event} (h : r ∈ (d.hears events).results) :
    .registerOtherPlayerResult r ∈ events ∨ r ∈ d.results := by
  have hrun : ∀ (rs : List PlayerSendResultData) (d : ResultsDisplay),
      r ∈ (system.run d rs).results → r ∈ rs ∨ r ∈ d.results := by
    intro rs
    induction rs with
    | nil => exact fun _ h => Or.inr h
    | cons q rs ih =>
      intro d h
      obtain h | h := ih _ h
      · exact Or.inl (List.mem_cons_of_mem q h)
      · obtain rfl | h := of_mem_insertResult h
        · exact Or.inl List.mem_cons_self
        · exact Or.inr h
  obtain h | h := hrun _ d h
  · obtain ⟨e, he, hr⟩ := List.mem_filterMap.mp h
    cases e with
    | registerOtherPlayerResult d =>
      obtain rfl := Option.some.inj hr
      exact Or.inl he
    | _ => nomatch hr
  · exact Or.inr h

theorem hears_shows {events : List Event} (h : .registerOtherPlayerResult r ∈ events)
    (hd : d.Consistent) : ∃ q ∈ (d.hears events).results, q.playerID = r.playerID := by
  have hrun : ∀ (rs : List PlayerSendResultData) (d : ResultsDisplay), d.Consistent → r ∈ rs →
      ∃ q ∈ (system.run d rs).results, q.playerID = r.playerID := by
    intro rs
    induction rs with
    | nil => exact fun _ _ h => absurd h List.not_mem_nil
    | cons p rs ih =>
      intro d hd h
      have hnext : (d.insertResult p).Consistent := hd.insertResult p
      obtain rfl | h := List.mem_cons.mp h
      · have hmem : ∃ q ∈ (d.insertResult r).results, q.playerID = r.playerID := by
          by_cases hk : r.playerID ∈ d.mStoredIDs
          · obtain ⟨q, hq, hid⟩ := List.mem_map.mp ((hd.ids _).mp hk)
            exact ⟨q, insertResult_keeps r hq, hid⟩
          · exact ⟨r, (mem_insertResult hk).mpr (Or.inl rfl), rfl⟩
        obtain ⟨q, hq, hid⟩ := hmem
        refine ⟨q, ?_, hid⟩
        exact System.invariant_always (M := system) (I := fun e : ResultsDisplay => q ∈ e.results)
          (fun _ p h => insertResult_keeps p h) hq rs
      · exact ih _ hnext h
  exact hrun _ d hd (List.mem_filterMap.mpr ⟨_, h, rfl⟩)

end ResultsDisplay

end SeminarTouhou
