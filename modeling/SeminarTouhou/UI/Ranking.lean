import SeminarTouhou.UI.ResultsDisplay

namespace SeminarTouhou

open Library

namespace ResultsDisplay

/-- The display after a sequence of results, on a scene with the given texts. -/
def shows (texts : String × String × String) (rs : List PlayerSendResultData) : ResultsDisplay :=
  system.run (start texts.1 texts.2.1 texts.2.2) rs

section Runs

variable (texts : String × String × String)

theorem shows_concat (rs : List PlayerSendResultData) (r : PlayerSendResultData) :
    shows texts (rs ++ [r]) = (shows texts rs).insertResult r := by
  simp [shows, System.run, system]

theorem results_place (d : ResultsDisplay) (new : ResultUI) :
    (place scoreOf new d.mSortedResults).map ResultUI.resultData =
      place (fun r => r.score) new.resultData d.results :=
  List.map_orderedInsert _ _ _ _ new (fun _ _ => Iff.rfl) (fun _ _ => Iff.rfl)

theorem drop_texts (names : List String) {t : List String} (h : t.length = 3) :
    (names.take 3 ++ t.drop names.length).drop (names.length + 1) = t.drop (names.length + 1) := by
  rw [List.drop_append, List.drop_eq_nil_of_le (by simp), List.nil_append, List.drop_drop,
    List.length_take]
  by_cases hn : names.length < 3
  · congr 1
    omega
  · rw [List.drop_eq_nil_of_le (by omega), List.drop_eq_nil_of_le (by omega)]

theorem shows_spec (rs : List PlayerSendResultData) :
    (shows texts rs).results = rank (fun r => r.score) (firsts (fun r => r.playerID) rs) ∧
      (∀ id, id ∈ (shows texts rs).mStoredIDs ↔ id ∈ rs.map (fun r => r.playerID)) ∧
      (shows texts rs).top3 = ((shows texts rs).results.map (fun r => r.name)).take 3 ++
        [texts.1, texts.2.1, texts.2.2].drop (shows texts rs).results.length := by
  induction rs using List.reverseRecOn with
  | nil => exact ⟨rfl, fun id => Iff.rfl, rfl⟩
  | append_singleton rs r ih =>
    obtain ⟨hr, hs, ht⟩ := ih
    rw [shows_concat, firsts_concat]
    by_cases hk : r.playerID ∈ (shows texts rs).mStoredIDs
    · rw [insertResult_known hk, if_pos ((hs _).mp hk)]
      refine ⟨hr, ?_, ht⟩
      intro id
      rw [hs, List.map_append, List.mem_append]
      constructor
      · intro h
        exact Or.inl h
      · rintro (h | h)
        · exact h
        · obtain rfl := List.mem_singleton.mp h
          exact (hs _).mp hk
    · obtain ⟨hsort, htop⟩ := insertResult_new hk
      have hres : ((shows texts rs).insertResult r).results =
          place (fun r => r.score) r (shows texts rs).results := by
        rw [results, hsort, results_place, newResult_data]
      have hlen : ((shows texts rs).insertResult r).results.length =
          (shows texts rs).results.length + 1 := by
        rw [hres, (perm_place r _).length_eq, List.length_cons]
      rw [if_neg (fun h => hk ((hs _).mpr h)), rank_concat, ← hr]
      refine ⟨hres, ?_, ?_⟩
      · intro id
        rw [(insertResult_stored hk).1, List.mem_append, hs, List.map_append, List.mem_append]
        rfl
      · rw [htop, ht, hlen]
        congr 1
        have hd := drop_texts ((shows texts rs).results.map (fun r => r.name))
          (t := [texts.1, texts.2.1, texts.2.2]) rfl
        simpa only [List.length_map] using hd

/-- After any sequence of results the display holds the first version of each player's result and no
other, by falling score and, among equals, by first arrival, and its three places show the first
three names; places that nobody has taken keep their texts. -/
theorem ranking_stable (rs : List PlayerSendResultData) :
    let d := shows texts rs
    (d.results.map (fun r => r.playerID)).Nodup ∧
      (∀ id, id ∈ d.results.map (fun r => r.playerID) ↔ id ∈ rs.map (fun r => r.playerID)) ∧
      (∀ r ∈ d.results, rs.find? (fun q => q.playerID = r.playerID) = some r) ∧
      d.results.Pairwise (fun a b => b.score ≤ a.score) ∧
      d.results.Pairwise (fun a b => a.score = b.score →
        rs.findIdx (fun q => q.playerID = a.playerID) <
          rs.findIdx (fun q => q.playerID = b.playerID)) ∧
      d.top3 = (d.results.map (fun r => r.name)).take 3 ++
        [texts.1, texts.2.1, texts.2.2].drop d.results.length := by
  obtain ⟨hr, -, ht⟩ := shows_spec texts rs
  obtain ⟨hranked, hperm, htier⟩ := rank_spec (fun r : PlayerSendResultData => r.score)
    (firsts (fun r => r.playerID) rs)
  dsimp only
  refine ⟨?_, ?_, ?_, ?_, ?_, ht⟩
  · rw [hr]
    exact (hperm.map _).nodup_iff.mpr (firsts_nodup rs)
  · intro id
    rw [hr, (hperm.map _).mem_iff]
    exact name_mem_firsts
  · intro r h
    rw [hr, hperm.mem_iff] at h
    exact mem_firsts.mp h
  · rw [hr]
    exact hranked
  · rw [hr]
    apply pairwise_of_tiers
    intro k
    rw [htier]
    exact (firsts_pairwise rs).filter _

theorem shows_of_nodup {rs : List PlayerSendResultData} (h : (rs.map (fun r => r.playerID)).Nodup) :
    (shows texts rs).results = rank (fun r => r.score) rs := by
  rw [(shows_spec texts rs).1, firsts_of_nodup h]

end Runs

section Arrivals

/-- Two displays that get the same results in different orders show the same scores from top to
bottom, and the same players exactly when each group of equal scores arrived in the same order. -/
theorem ranking_of_arrivals (texts texts' : String × String × String)
    {rs rs' : List PlayerSendResultData} (hp : rs.Perm rs')
    (hn : (rs.map (fun r => r.playerID)).Nodup) :
    (shows texts rs).results.map (fun r => r.score) =
        (shows texts' rs').results.map (fun r => r.score) ∧
      ((shows texts rs).results = (shows texts' rs').results ↔
        ∀ score, rs.filter (fun r => r.score = score) = rs'.filter (fun r => r.score = score)) := by
  have hn' : (rs'.map (fun r => r.playerID)).Nodup := (hp.map _).nodup_iff.mp hn
  rw [shows_of_nodup texts hn, shows_of_nodup texts' hn']
  exact ⟨rank_keys hp, rank_eq_iff⟩

theorem ranking_of_two : (shows ("", "", "")
    [⟨1, 1, 3, 5, 70, .playerDied, "b"⟩, ⟨1, 0, 9, 5, 90, .playerWon, "a"⟩]).results =
      (shows ("1st", "2nd", "3rd")
        [⟨1, 0, 9, 5, 90, .playerWon, "a"⟩, ⟨1, 1, 3, 5, 70, .playerDied, "b"⟩]).results := by
  apply (ranking_of_arrivals _ _ (List.Perm.swap _ _ _) (by decide)).2.mpr
  intro score
  by_cases h : score = 90
  · subst h
    rfl
  · have h' : ¬ (90 : ℤ) = score := fun he => h he.symm
    simp [List.filter_cons, h']

theorem tied_arrivals_differ : ¬ ∀ (texts texts' : String × String × String)
    (rs rs' : List PlayerSendResultData), rs.Perm rs' → (rs.map (fun r => r.playerID)).Nodup →
      (shows texts rs).results = (shows texts' rs').results := by
  intro h
  have he := h ("", "", "") ("", "", "")
    [⟨1, 1, 3, 5, 70, .playerDied, "b"⟩, ⟨1, 0, 9, 5, 70, .playerWon, "a"⟩]
    [⟨1, 0, 9, 5, 70, .playerWon, "a"⟩, ⟨1, 1, 3, 5, 70, .playerDied, "b"⟩]
    (List.Perm.swap _ _ _) (by decide)
  revert he
  decide

end Arrivals

end ResultsDisplay

end SeminarTouhou
