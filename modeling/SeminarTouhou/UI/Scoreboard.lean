import SeminarTouhou.UI.Ranking

namespace SeminarTouhou

open Library

section Siblings

theorem insertIdx_between {α : Type*} (a : α) (front back : List α) :
    (front ++ back).insertIdx front.length a = front ++ a :: back := by
  induction front with
  | nil => rfl
  | cons b front ih => simpa using ih

theorem setSiblingIndex_move {row : ResultRow} {before : List ResultRow} (h : row ∉ before)
    (after front back : List ResultRow) (hsplit : before ++ after = front ++ back) :
    setSiblingIndex row front.length (before ++ row :: after) = front ++ row :: back := by
  have he : (before ++ row :: after).erase row = before ++ after := by
    rw [List.erase_append_right _ h, List.erase_cons_head]
  rw [setSiblingIndex, he, hsplit, Nat.min_eq_left (by simp)]
  exact insertIdx_between row front back

theorem setSiblingIndex_last {row : ResultRow} {rows : List ResultRow} (h : row ∉ rows) :
    setSiblingIndex row (rows ++ [row]).length (rows ++ [row]) = rows ++ [row] := by
  have he : (rows ++ [row]).erase row = rows := by
    rw [List.erase_append_right _ h, List.erase_cons_head, List.append_nil]
  rw [setSiblingIndex, he, Nat.min_eq_right (by simp), List.insertIdx_length_self]

def oneDown (row : ResultRow) : List ResultRow → List ResultRow
  | [] => [row]
  | b :: back => b :: row :: back

theorem moved_rows {row new : ResultRow} {front back : List ResultRow} {index : ℕ}
    (hi : index = front.length) (hd : (front ++ row :: back).Nodup)
    (hn : new ∉ front ++ row :: back) :
    setSiblingIndex new index (setSiblingIndex row (index + 1) (front ++ row :: back ++ [new])) =
      front ++ new :: oneDown row back := by
  subst hi
  have hrow : row ∉ front := by
    intro h
    exact (List.nodup_append.mp hd).2.2 row h row List.mem_cons_self rfl
  have hnew : new ∉ front := fun h => hn (List.mem_append_left _ h)
  cases back with
  | nil =>
    have hone : setSiblingIndex row (front.length + 1) (front ++ row :: ([] ++ [new])) =
        (front ++ [new]) ++ [row] := by
      have hm := setSiblingIndex_move hrow [new] (front ++ [new]) [] (by simp)
      simpa using hm
    have htwo := setSiblingIndex_move hnew [row] front [row] rfl
    rw [List.append_assoc, List.cons_append, hone, List.append_assoc]
    exact htwo
  | cons b back =>
    have hone : setSiblingIndex row (front.length + 1) (front ++ row :: (b :: back ++ [new])) =
        (front ++ [b]) ++ row :: (back ++ [new]) := by
      have hm := setSiblingIndex_move hrow (b :: back ++ [new]) (front ++ [b]) (back ++ [new]) (by simp)
      simpa using hm
    have hlast : new ∉ front ++ b :: row :: back := by
      intro h
      apply hn
      simp only [List.mem_append, List.mem_cons] at h ⊢
      tauto
    have htwo := setSiblingIndex_move hlast [] front (b :: row :: back) (by simp)
    rw [List.append_assoc, List.cons_append, hone, oneDown]
    simpa using htwo

end Siblings

namespace ResultsDisplay

/-- The rows under the container stand in the order of `mSortedResults`. -/
def InOrder (d : ResultsDisplay) : Prop := d.mResultsContent = d.mSortedResults.map ResultUI.resultOBJ

/-- A repeat, or a result that outscores at most one of the entries. -/
def OutscoresOne (d : ResultsDisplay) (result : PlayerSendResultData) : Prop :=
  result.playerID ∈ d.mStoredIDs ∨ d.results.countP (fun r => r.score < result.score) ≤ 1

structure Sorted (d : ResultsDisplay) : Prop where
  ranked : Ranked scoreOf d.mSortedResults
  inOrder : d.InOrder
  distinct : d.mResultsContent.Nodup
  older : ∀ row ∈ d.mResultsContent, row.instanceID < d.instances

theorem findIdx_cases {α : Type*} (p : α → Bool) (l : List α) :
    l.findIdx? p = none ∧ (∀ a ∈ l, p a = false) ∨
      ∃ front a back, l = front ++ a :: back ∧ l.findIdx? p = some front.length ∧
        (∀ b ∈ front, p b = false) ∧ p a = true := by
  induction l with
  | nil => exact Or.inl ⟨rfl, by simp⟩
  | cons b l ih =>
    cases hb : p b with
    | true => exact Or.inr ⟨[], b, l, rfl, by rw [List.findIdx?_cons, hb]; rfl, by simp, hb⟩
    | false =>
      obtain ⟨hn, hall⟩ | ⟨front, a, back, rfl, hf, hfront, ha⟩ := ih
      · refine Or.inl ⟨by simp [List.findIdx?_cons, hb, hn], ?_⟩
        intro a ha
        obtain rfl | ha := List.mem_cons.mp ha
        · exact hb
        · exact hall a ha
      · refine Or.inr ⟨b :: front, a, back, rfl, by simp [List.findIdx?_cons, hb, hf], ?_, ha⟩
        intro c hc
        obtain rfl | hc := List.mem_cons.mp hc
        · exact hb
        · exact hfront c hc

section Insert

variable {d : ResultsDisplay} {result : PlayerSendResultData}

theorem newRow_fresh (result : PlayerSendResultData) (h : d.Sorted) :
    (d.newResult result).resultOBJ ∉ d.mResultsContent := by
  intro hm
  have hlt := h.older _ hm
  exact lt_irrefl d.instances hlt

theorem insertResult_content (h : d.Sorted) (hn : result.playerID ∉ d.mStoredIDs) :
    ((∀ r ∈ d.mSortedResults, ¬ scoreOf r < result.score) ∧
      (d.insertResult result).mSortedResults = d.mSortedResults ++ [d.newResult result] ∧
      (d.insertResult result).mResultsContent =
        d.mResultsContent ++ [(d.newResult result).resultOBJ]) ∨
    ∃ front r back, d.mSortedResults = front ++ r :: back ∧
      (∀ q ∈ front, ¬ scoreOf q < result.score) ∧ scoreOf r < result.score ∧
      (d.insertResult result).mSortedResults = front ++ d.newResult result :: r :: back ∧
      (d.insertResult result).mResultsContent =
        front.map ResultUI.resultOBJ ++
          (d.newResult result).resultOBJ :: oneDown r.resultOBJ (back.map ResultUI.resultOBJ) := by
  have hfresh := newRow_fresh result h
  have hdistinct := h.distinct
  obtain ⟨hi, hall⟩ | ⟨front, r, back, hsplit, hi, hfront, hr⟩ :=
    findIdx_cases (fun r => getIfNewScoreIsHigher result r.resultData) d.mSortedResults
  · refine Or.inl ⟨?_, ?_, ?_⟩
    · intro r hr
      rw [← getIfNewScoreIsHigher_iff, hall r hr]
      exact Bool.false_ne_true
    · rw [insertResult, if_neg hn]
      dsimp only [instantiate, store]
      rw [hi, updateTop3_sorted]
      rfl
    · rw [insertResult, if_neg hn]
      dsimp only [instantiate, store]
      rw [hi, updateTop3_content]
      exact setSiblingIndex_last hfresh
  · refine Or.inr ⟨front, r, back, hsplit, ?_, (getIfNewScoreIsHigher_iff result r).mp hr, ?_, ?_⟩
    · intro q hq
      rw [← getIfNewScoreIsHigher_iff, hfront q hq]
      exact Bool.false_ne_true
    · rw [(insertResult_new hn).1, place_findIdx, newResult_data, hi, hsplit]
      exact insertIdx_between _ front (r :: back)
    · have hget : d.mSortedResults[front.length]? = some r := by simp [hsplit]
      rw [insertResult, if_neg hn]
      dsimp only [instantiate, store]
      rw [hi]
      dsimp only [displace]
      rw [hget, updateTop3_content]
      dsimp only [insertAt]
      rw [h.inOrder, hsplit, List.map_append, List.map_cons] at hdistinct hfresh ⊢
      exact moved_rows (List.length_map _).symm hdistinct hfresh

theorem start_sorted (first second third : String) : (start first second third).Sorted :=
  ⟨List.Pairwise.nil, rfl, List.nodup_nil, by simp [start]⟩

theorem Sorted.insertResult (h : d.Sorted) (ho : (d.insertResult result).InOrder) :
    (d.insertResult result).Sorted := by
  by_cases hn : result.playerID ∈ d.mStoredIDs
  · rwa [insertResult_known hn]
  · have hsort := (insertResult_new hn).1
    have hperm : (d.insertResult result).mResultsContent.Perm
        ((d.newResult result).resultOBJ :: d.mResultsContent) := by
      rw [ho, hsort, h.inOrder]
      exact (perm_place _ _).map ResultUI.resultOBJ
    constructor
    · rw [hsort]
      exact h.ranked.place _
    · exact ho
    · rw [hperm.nodup_iff]
      exact List.nodup_cons.mpr ⟨newRow_fresh result h, h.distinct⟩
    · intro row hrow
      rw [(insertResult_stored hn).2]
      obtain rfl | hrow := List.mem_cons.mp (hperm.mem_iff.mp hrow)
      · exact Nat.lt_succ_self _
      · exact (h.older row hrow).trans (Nat.lt_succ_self _)

theorem insertResult_inOrder (h : d.Sorted) :
    (d.insertResult result).InOrder ↔ d.OutscoresOne result := by
  by_cases hn : result.playerID ∈ d.mStoredIDs
  · rw [insertResult_known hn]
    exact ⟨fun _ => Or.inl hn, fun _ => h.inOrder⟩
  · have hcount : d.results.countP (fun r => r.score < result.score) =
        d.mSortedResults.countP (fun r => scoreOf r < result.score) := List.countP_map
    rw [OutscoresOne, or_iff_right hn, hcount, InOrder]
    obtain ⟨hall, hs, hc⟩ | ⟨front, r, back, hsplit, hfront, hr, hs, hc⟩ := insertResult_content h hn
    · have hzero : d.mSortedResults.countP (fun r => scoreOf r < result.score) = 0 := by
        rw [List.countP_eq_zero]
        intro r hr
        simpa using hall r hr
      rw [hs, hc, hzero, h.inOrder, List.map_append]
      exact ⟨fun _ => Nat.zero_le 1, fun _ => rfl⟩
    · have hranked := h.ranked
      have hdistinct := h.distinct
      rw [h.inOrder, hsplit] at hdistinct
      rw [hsplit] at hranked ⊢
      have hzero : front.countP (fun r => scoreOf r < result.score) = 0 := by
        rw [List.countP_eq_zero]
        intro q hq
        simpa using hfront q hq
      have hback : back.countP (fun r => scoreOf r < result.score) = back.length := by
        rw [List.countP_eq_length]
        intro q hq
        have hle := (List.pairwise_cons.mp (List.pairwise_append.mp hranked).2.1).1 q hq
        simpa using lt_of_le_of_lt hle hr
      rw [hs, hc, List.countP_append, hzero, List.countP_cons_of_pos (by simpa using hr), hback,
        List.map_append, List.map_cons, List.map_cons, List.append_cancel_left_eq]
      cases back with
      | nil => simp [oneDown]
      | cons b back =>
        have hne : r.resultOBJ ≠ b.resultOBJ := by
          have hd : (front.map ResultUI.resultOBJ ++
              r.resultOBJ :: b.resultOBJ :: back.map ResultUI.resultOBJ).Nodup := by
            simpa using hdistinct
          have hd := (List.nodup_cons.mp (List.nodup_append.mp hd).2.1).1
          intro he
          exact hd (he ▸ List.mem_cons_self)
        simp [oneDown, Ne.symm hne]

end Insert

/-- The rows follow the ranking exactly as long as no first result outscores two entries. -/
theorem rows_in_order (first second third : String) (rs : List PlayerSendResultData) :
    system.Meets (fun d r => (d.insertResult r).InOrder) (start first second third) rs ↔
      system.Meets OutscoresOne (start first second third) rs := by
  apply System.meets_iff (I := Sorted)
  · intro d r h _ ho
    exact h.insertResult ((insertResult_inOrder h).mpr ho)
  · intro d r h _
    exact insertResult_inOrder h
  · exact start_sorted first second third
  · intro p _
    trivial

instance (d : ResultsDisplay) : Decidable d.InOrder :=
  inferInstanceAs (Decidable (d.mResultsContent = d.mSortedResults.map ResultUI.resultOBJ))

/-- A winner whose result arrives last pushes the first row below the second. -/
theorem lastWinner_misplaces : ¬ ∀ (first second third : String) (rs : List PlayerSendResultData),
    system.Meets (fun d r => (d.insertResult r).InOrder) (start first second third) rs := by
  intro h
  have hbad := h "" "" ""
    [⟨1, 1, 3, 5, 50, .playerDied, "b"⟩, ⟨1, 2, 4, 2, 40, .playerDied, "c"⟩,
      ⟨1, 0, 9, 5, 60, .playerWon, "a"⟩]
  revert hbad
  decide

end ResultsDisplay

end SeminarTouhou
