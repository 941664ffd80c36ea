import Mathlib.Data.List.Nodup
import Tradebook.Proofs.WalkWindow

/-!
# Windows that are too full

A window gives up where the greatest page holds nothing new. This file is about what such a
page says of the rows (`window_crowd`).

A page is asked for back from an instant whose rows are all that was taken in of the span
since the window began. Beside these only rows from before the window can be known, and these
are no later than its beginning. So the page is one of an instant that fills it, or of two
that do so together: the beginning of the window, where rows were known from the window before
it, and the next instant that has any (`Crowd`).

The other way about, a window that ends well has gone past none of its instants before it saw
an earlier row or the end of the rows. If no page is larger than the greatest one, then no
instant of the window fills that.
-/

namespace Tradebook.Ftx.Walk

section Rows

variable {ρ : Type} {view : RowView ρ} {rows : List ρ}

/-- The rows of one instant. -/
def rowsAt (view : RowView ρ) (rows : List ρ) (t : Timestamp) : List ρ :=
  rows.filter fun r => view.time r = t

theorem mem_rowsAt {t : Timestamp} {r : ρ} :
    r ∈ rowsAt view rows t ↔ r ∈ rows ∧ view.time r = t := by
  rw [rowsAt, List.mem_filter, decide_eq_true_iff]

theorem length_rowsAt_le (hids : (rows.map view.id).Nodup) {t : Timestamp} {few : List ρ}
    (h : ∀ r ∈ rows, view.time r = t → r ∈ few) : (rowsAt view rows t).length ≤ few.length := by
  have hnodup : (rowsAt view rows t).Nodup := (hids.of_map _).sublist List.filter_sublist
  refine (hnodup.subperm fun r hr => ?_).length_le
  obtain ⟨hrow, htime⟩ := mem_rowsAt.1 hr
  exact h r hrow htime

/-- Rows that fill the greatest page: those of one instant, or those of the beginning of a span
and of the next instant that has any. The second can only be if some were `known` before. -/
inductive Crowd (view : RowView ρ) (rows : List ρ) (known : Prop) (start upper : Timestamp) : Prop
  | one {t : Timestamp} (hfrom : start ≤ t) (hto : t ≤ upper)
      (hmany : greatestPage ≤ (rowsAt view rows t).length)
  | two {t : Timestamp} (hknown : known) (hfrom : start < t) (hto : t ≤ upper)
      (hmany : greatestPage ≤ (spanOf view rows start t).length)
      (hnext : ∀ r ∈ spanOf view rows start t, view.time r = start ∨ view.time r = t)

theorem Crowd.mono {known known' : Prop} {start upper upper' : Timestamp}
    (h : Crowd view rows known start upper) (hknown : known → known') (hle : upper ≤ upper') :
    Crowd view rows known' start upper' := by
  cases h with
  | one hfrom hto hmany => exact .one hfrom (le_trans hto hle) hmany
  | two hold hfrom hto hmany hnext =>
      exact .two (hknown hold) hfrom (le_trans hto hle) hmany hnext

/-- A page whose rows were all known before the window, or are of its end. -/
theorem crowd_of_page (hids : (rows.map view.id).Nodup) {start upper : Timestamp} {size : Nat}
    {page before : List ρ} (hpage : NewestPage view.time (spanOf view rows start upper) size page)
    (hle : start ≤ upper) (hmany : greatestPage ≤ page.length)
    (hbefore : ∀ r ∈ before, view.time r ≤ start)
    (hknown : ∀ r ∈ page, r ∈ before ∨ view.time r = upper) :
    Crowd view rows (before ≠ []) start upper := by
  have hnodup : page.Nodup := by
    obtain ⟨rest, hperm, -, -⟩ := hpage
    have hall := hperm.nodup_iff.2 ((nodup_ids_spanOf hids start upper).of_map _)
    exact (List.nodup_append.1 hall).1
  by_cases hone : ∀ r ∈ page, view.time r = upper
  · refine .one hle (le_refl upper) (le_trans hmany ?_)
    refine (hnodup.subperm fun r hr => ?_).length_le
    exact mem_rowsAt.2 ⟨(mem_spanOf.1 (hpage.mem_span hr)).1, hone r hr⟩
  · obtain ⟨p, hp, hother⟩ : ∃ p ∈ page, view.time p ≠ upper := by simpa using hone
    have hold := (hknown p hp).resolve_right hother
    obtain ⟨-, hfrom, hto⟩ := mem_spanOf.1 (hpage.mem_span hp)
    have htime : view.time p = start := le_antisymm (hbefore p hold) hfrom
    refine .two (List.ne_nil_of_mem hold) (htime ▸ lt_of_le_of_ne hto hother) (le_refl upper)
      (le_trans hmany hpage.length_le) fun r hr => ?_
    obtain ⟨-, hstart, -⟩ := mem_spanOf.1 hr
    -- A row between the two would be newer than the one at the beginning, and so on the page.
    rcases eq_or_lt_of_le hstart with heq | hlt
    · exact Or.inl heq.symm
    · have hmem := hpage.mem_of_newer hp hr (htime ▸ hlt)
      exact Or.inr ((hknown r hmem).resolve_left fun hmem => absurd hlt (not_lt.2 (hbefore r hmem)))

end Rows

section Serving

variable {σ ρ : Type} {view : RowView ρ} {rows : List ρ} {ask : Ask σ ρ}
  {low high : Timestamp → Prop} {start : Timestamp}

/-- What a turn says of rows that share an instant. -/
theorem turn_crowd (h : Serves view rows ask low high) (keep : ρ → Bool) (endpoint : String)
    {pageSize : Nat} (hpageSize : 1 ≤ pageSize) (hlow : low start) {upper : Timestamp}
    (hhigh : high upper) {size : Nat} (hsize : 1 ≤ size) {taken : List ρ}
    (hin : ∀ r ∈ taken, r ∈ rows) (s : σ) :
    match turn view keep ask endpoint pageSize start upper size (.of view keep taken) s with
    | .stop (.ok _) _ => size ≤ greatestPage →
        ∀ t, start ≤ t → t ≤ upper → (rowsAt view rows t).length < greatestPage
    | .stop (.error cause) _ => (∃ s', ask start upper size s = (.error cause, s')) ∨
        ∃ instant page, cause = crowded endpoint instant ∧ start ≤ upper ∧
          NewestPage view.time (spanOf view rows start upper) size page ∧
          greatestPage ≤ page.length ∧ ∀ r ∈ page, r ∈ taken
    | .stop _ _ => True
    | .again upper' size' found _ => ∃ more, found = .of view keep more ∧
        (∀ r ∈ more, r ∈ rows) ∧ high upper' ∧ upper' ≤ upper ∧ 1 ≤ size' ∧
        (pageSize ≤ greatestPage → size' ≤ greatestPage) ∧
        (∀ r ∈ more, r ∈ taken ∨ upper' ≤ view.time r) ∧
        (size ≤ greatestPage → ∀ t, upper' < t → t ≤ upper →
          (rowsAt view rows t).length < greatestPage) := by
  rw [turn]
  rcases hask : ask start upper size s with ⟨page | cause | _ | _, s₁⟩
  case ok =>
    have hpage := h.page hlow hhigh hask
    have hspan : ∀ r ∈ page, r ∈ spanOf view rows start upper := fun r => hpage.mem_span
    have hshort : page.length < size → size ≤ greatestPage → ∀ t, start ≤ t → t ≤ upper →
        (rowsAt view rows t).length < greatestPage := by
      intro hshort hsize t hfrom hto
      refine lt_of_le_of_lt (length_rowsAt_le h.ids fun r hr htime => ?_)
        (lt_of_lt_of_le hshort hsize)
      exact hpage.mem_of_short hshort (mem_spanOf.2 ⟨hr, htime ▸ hfrom, htime ▸ hto⟩)
    cases holdest : earliest? (page.map view.time) with
    | none =>
        simp only [holdest]
        have hnil : page = [] := List.map_eq_nil_iff.1 (earliest?_eq_none.1 holdest)
        exact hshort (by rw [hnil]; exact hsize)
    | some oldest =>
        simp only [holdest]
        obtain ⟨holdest, hle⟩ := earliest?_eq_some holdest
        obtain ⟨last, hlast, rfl⟩ := List.mem_map.1 holdest
        obtain ⟨hrow, hfrom, hto⟩ := mem_spanOf.1 (hspan last hlast)
        have hmem := fun r => mem_foldl_takeIn (r := r) h.ids
          (fun r hr => (mem_spanOf.1 (hspan r hr)).1) hin
        have hin' : ∀ r ∈ page.foldl (takeIn view) taken, r ∈ rows := fun r hr =>
          ((hmem r).1 hr).elim (hin r) fun hr => (mem_spanOf.1 (hspan r hr)).1
        rw [foldl_add_of, length_seen_of, length_seen_of]
        by_cases hfull : page.length < size
        · rw [if_pos hfull]
          exact hshort hfull
        · rw [if_neg hfull]
          by_cases hnew : taken.length < (page.foldl (takeIn view) taken).length
          · rw [if_pos hnew]
            refine ⟨_, rfl, hin', h.high_time last hrow, hto, hpageSize, id, fun r hr => ?_,
              fun hsize t hlater hto => ?_⟩
            · exact ((hmem r).1 hr).imp_right fun hr => hle _ (List.mem_map_of_mem hr)
            · -- The page has all rows of the instant and an earlier one beside them.
              have hbeside : (page.filter fun r => view.time r = t).length < page.length :=
                List.length_filter_lt_length_iff_exists.2
                  ⟨last, hlast, by simpa using ne_of_lt hlater⟩
              have hlength : page.length ≤ size := by
                obtain ⟨-, -, hlength, -⟩ := hpage
                omega
              refine lt_of_le_of_lt (length_rowsAt_le h.ids fun r hr htime => ?_)
                (lt_of_lt_of_le hbeside (le_trans hlength hsize))
              have hspan' := mem_spanOf.2
                ⟨hr, le_trans hfrom (htime ▸ le_of_lt hlater), htime ▸ hto⟩
              exact List.mem_filter.2
                ⟨hpage.mem_of_newer hlast hspan' (htime ▸ hlater), decide_eq_true htime⟩
          · rw [if_neg hnew]
            have hsame := foldl_takeIn_eq (Nat.not_lt.1 hnew)
            by_cases hcrowded : greatestPage ≤ size
            · rw [if_pos hcrowded]
              refine Or.inr ⟨_, page, rfl, le_trans hfrom hto, hpage,
                le_trans hcrowded (Nat.not_lt.1 hfull), fun r hr => ?_⟩
              rw [← hsame]
              exact (hmem r).2 (Or.inr hr)
            · rw [if_neg hcrowded]
              refine ⟨_, rfl, hin', hhigh, le_refl _, ?_, fun _ => min_le_right _ _, fun r hr => ?_,
                fun _ t hlater hto => absurd hlater (not_lt.2 hto)⟩
              · unfold greatestPage
                omega
              · rw [hsame] at hr
                exact Or.inl hr
  case error => exact Or.inl ⟨s₁, rfl⟩
  all_goals trivial

/-- A window that ends well has no instant that fills the greatest page, if no page is larger.
One that does not, where the server gave an answer, has a crowd. -/
theorem window_crowd (h : Serves view rows ask low high) (keep : ρ → Bool) (endpoint : String)
    {pageSize : Nat} (hpageSize : 1 ≤ pageSize) (hlow : low start) {before : List ρ}
    (hbefore : ∀ r ∈ before, view.time r ≤ start) (steps : Nat) {upper : Timestamp}
    (hhigh : high upper) {size : Nat} (hsize : 1 ≤ size) {taken : List ρ}
    (hin : ∀ r ∈ taken, r ∈ rows) (htaken : ∀ r ∈ taken, r ∈ before ∨ upper ≤ view.time r)
    (s : σ) :
    match window view keep ask endpoint pageSize start steps upper size (.of view keep taken) s with
    | (.ok _, _) => pageSize ≤ greatestPage → size ≤ greatestPage →
        ∀ t, start ≤ t → t ≤ upper → (rowsAt view rows t).length < greatestPage
    | (.error cause, _) =>
        (∃ upper size s s', high upper ∧ ask start upper size s = (.error cause, s')) ∨
        (∃ instant, cause = crowded endpoint instant) ∧
          Crowd view rows (before ≠ []) start upper
    | _ => True := by
  induction steps generalizing upper size taken s with
  | zero => trivial
  | succ steps ih =>
      have hturn := turn_crowd h keep endpoint hpageSize hlow hhigh hsize hin s
      rw [window_succ]
      cases hcase : turn view keep ask endpoint pageSize start upper size
        (.of view keep taken) s with
      | stop result s₁ =>
          rw [hcase] at hturn
          cases result with
          | ok found => exact fun _ => hturn
          | error cause =>
              rcases hturn with ⟨s', hask⟩ | ⟨instant, page, hcause, hle, hpage, hmany, hknown⟩
              · exact Or.inl ⟨upper, size, s, s', hhigh, hask⟩
              · refine Or.inr ⟨⟨instant, hcause⟩, crowd_of_page h.ids hpage hle hmany hbefore ?_⟩
                intro r hr
                refine (htaken r (hknown r hr)).imp_right fun hge => ?_
                exact le_antisymm (mem_spanOf.1 (hpage.mem_span hr)).2.2 hge
          | overflow => trivial
          | exhausted => trivial
      | again upper' size' found s₁ =>
          rw [hcase] at hturn
          obtain ⟨more, rfl, hin', hhigh', hle, hsize', hbound, hmore, hpast⟩ := hturn
          have hknown : ∀ r ∈ more, r ∈ before ∨ upper' ≤ view.time r := by
            intro r hr
            rcases hmore r hr with hr | hlater
            · exact (htaken r hr).imp_right (le_trans hle)
            · exact Or.inr hlater
          have hrest := ih hhigh' hsize' hin' hknown s₁
          dsimp only
          split
          · next heq =>
              rw [heq] at hrest
              intro hpages hsize t hfrom hto
              rcases lt_or_ge upper' t with hlater | hge
              · exact hpast hsize t hlater hto
              · exact hrest hpages (hbound hpages) t hfrom hge
          · next heq =>
              rw [heq] at hrest
              exact hrest.imp_right fun hcrowd => ⟨hcrowd.1, hcrowd.2.mono id hle⟩
          · trivial

end Serving

end Tradebook.Ftx.Walk
