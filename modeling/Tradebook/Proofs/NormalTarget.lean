import Mathlib
import Tradebook.Http.Target
import Tradebook.Proofs.Utf8Text

/-!
# The normal form of a target

What of an address stands behind the host is sent in its normal form (`normal`): in the path
segments of dots are resolved, and what a path or a query cannot hold is written as percent
escapes. Which targets are sent as they are written can be said without the normal form
(`KeptTarget`): all characters stand for themselves, the path has no backslash, and none of its
segments is one of dots. Those are just the normal forms (`keptTarget_normal`, `normal_kept`).

Here lies the one thing that is not plain to see. A segment with escapes may be one of dots, for
the escape of a dot counts as a dot. So it matters that nothing but a dot has the escape of a dot
(`encodedChar_escape`) and that a dot is not escaped: no segment becomes one of dots by being
escaped (`isDots_of_encoded`).

A target may stand behind more than a host, for an address that requests are sent to may have a
path of its own. Then it is kept just if it is a normal form and nothing is left of what stands
before it (`normal_eq_iff`).
-/

namespace Tradebook.Http

open Text

/-! ## Characters -/

/-- Whether a character stands for itself. -/
def isPlain (escaped : List Char) (c : Char) : Bool :=
  32 ≤ c.toNat && c.toNat < 127 && !escaped.contains c

/-- What percent escapes are written with. -/
def escapeChars : List Char :=
  ['%', '0', '1', '2', '3', '4', '5', '6', '7', '8', '9', 'A', 'B', 'C', 'D', 'E', 'F']

variable {escaped : List Char}

theorem encodedChar_plain {c : Char} (h : isPlain escaped c = true) :
    encodedChar escaped c = [c] := by
  simp only [isPlain, Bool.and_eq_true, decide_eq_true_eq, Bool.not_eq_true'] at h
  obtain ⟨⟨hlow, hhigh⟩, hset⟩ := h
  refine if_neg ?_
  rw [hset]
  simp only [Bool.false_eq_true, or_false, not_or, not_lt, not_le]
  exact ⟨hlow, hhigh⟩

theorem encodedChar_escaped {c : Char} (h : isPlain escaped c = false) :
    encodedChar escaped c = (utf8 (String.ofList [c])).flatMap percentByte := by
  refine if_pos ?_
  by_contra hnot
  simp only [not_or, not_lt, not_le, Bool.not_eq_true] at hnot
  obtain ⟨hlow, hhigh, hset⟩ := hnot
  simp only [isPlain, hlow, hhigh, hset, decide_true, Bool.not_false, Bool.and_self] at h
  cases h

theorem percentByte_eq (b : UInt8) :
    percentByte b =
      ['%', (hexChar (b.toNat / 16)).toUpper, (hexChar (b.toNat % 16)).toUpper] := rfl

theorem mem_escapeChars_of_mem_percentByte {b : UInt8} {d : Char} (h : d ∈ percentByte b) :
    d ∈ escapeChars := by
  have hhex : ∀ n < 16, (hexChar n).toUpper ∈ escapeChars := by decide
  have hb := b.toNat_lt
  rw [percentByte_eq] at h
  simp only [List.mem_cons, List.not_mem_nil, or_false] at h
  rcases h with rfl | rfl | rfl
  · decide
  · exact hhex _ (by omega)
  · exact hhex _ (by omega)

/-- A character is written as itself or with the characters of percent escapes. -/
theorem mem_encodedChar {c d : Char} (h : d ∈ encodedChar escaped c) :
    (d = c ∧ isPlain escaped c = true) ∨ d ∈ escapeChars := by
  cases hplain : isPlain escaped c with
  | true =>
      rw [encodedChar_plain hplain] at h
      exact Or.inl ⟨List.mem_singleton.1 h, rfl⟩
  | false =>
      rw [encodedChar_escaped hplain] at h
      obtain ⟨b, -, hb⟩ := List.mem_flatMap.1 h
      exact Or.inr (mem_escapeChars_of_mem_percentByte hb)

/-- Only of a dot is there the escape of a dot, and a dot is not escaped. -/
theorem encodedChar_escape (hdot : isPlain escaped '.' = true) {c : Char}
    (h : isPlain escaped c = false) :
    ∃ x y rest, encodedChar escaped c = '%' :: x :: y :: rest ∧
      ¬ (x = '2' ∧ (y = 'e' ∨ y = 'E')) := by
  have hread := decodeLossy_utf8 (String.ofList [c])
  rw [String.toList_ofList] at hread
  rw [encodedChar_escaped h]
  cases hbytes : utf8 (String.ofList [c]) with
  | nil =>
      rw [hbytes, decodeLossy] at hread
      cases hread
  | cons b bytes =>
      refine ⟨_, _, bytes.flatMap percentByte, rfl, ?_⟩
      have hhigh : ∀ n < 16, (hexChar n).toUpper = '2' → n = 2 := by decide
      have hlow : ∀ n < 16, (hexChar n).toUpper = 'e' ∨ (hexChar n).toUpper = 'E' → n = 14 := by
        decide
      rintro ⟨hx, hy⟩
      have hb := b.toNat_lt
      have hx := hhigh _ (by omega) hx
      have hy := hlow _ (by omega) hy
      have hbyte : b.toNat = 46 := by omega
      rw [hbytes, decodeLossy, if_pos (by omega), hbyte] at hread
      obtain rfl : c = '.' := (List.cons.inj hread).1.symm
      rw [hdot] at h
      cases h

/-- Characters of an address in the normal form. -/
def encoded (escaped cs : List Char) : List Char :=
  cs.flatMap (encodedChar escaped)

theorem encoded_plain {cs : List Char} (h : ∀ c ∈ cs, isPlain escaped c = true) :
    encoded escaped cs = cs := by
  induction cs with
  | nil => rfl
  | cons c cs ih =>
      rw [encoded, List.flatMap_cons, encodedChar_plain (h c List.mem_cons_self)]
      exact congrArg (c :: ·) (ih fun d hd => h d (List.mem_cons_of_mem c hd))

theorem encoded_cons (c : Char) (cs : List Char) :
    encoded escaped (c :: cs) = encodedChar escaped c ++ encoded escaped cs :=
  List.flatMap_cons

theorem encoded_append (as bs : List Char) :
    encoded escaped (as ++ bs) = encoded escaped as ++ encoded escaped bs :=
  List.flatMap_append

/-- What is written in the normal form does not get shorter. -/
theorem length_le_length_encoded (hdot : isPlain escaped '.' = true) (cs : List Char) :
    cs.length ≤ (encoded escaped cs).length := by
  induction cs with
  | nil => exact Nat.le_refl _
  | cons c cs ih =>
      have hone : 1 ≤ (encodedChar escaped c).length := by
        cases hplain : isPlain escaped c with
        | true => rw [encodedChar_plain hplain, List.length_singleton]
        | false =>
            obtain ⟨x, y, rest, hescape, -⟩ := encodedChar_escape hdot hplain
            rw [hescape, List.length_cons]
            omega
      rw [encoded_cons, List.length_append, List.length_cons]
      omega

/-- The normal form is made of characters that stand for themselves. -/
theorem isPlain_of_mem_encoded (hescape : ∀ d ∈ escapeChars, isPlain escaped d = true)
    {cs : List Char} {d : Char} (h : d ∈ encoded escaped cs) : isPlain escaped d = true := by
  obtain ⟨c, -, hc⟩ := List.mem_flatMap.1 h
  rcases mem_encodedChar hc with ⟨rfl, hplain⟩ | hmem
  · exact hplain
  · exact hescape d hmem

/-! ## Segments -/

/-- A segment that is resolved. -/
def IsDots (segment : List Char) : Prop :=
  withDots segment = ['.'] ∨ withDots segment = ['.', '.']

instance (segment : List Char) : Decidable (IsDots segment) :=
  inferInstanceAs (Decidable (_ ∨ _))

/-- An escape of anything but a dot is no part of a segment of dots. -/
theorem percent_mem_withDots {cs : List Char} :
    ∀ {u v : List Char} {x y : Char}, cs = u ++ '%' :: x :: y :: v →
      ¬ (x = '2' ∧ (y = 'e' ∨ y = 'E')) → '%' ∈ withDots cs := by
  fun_induction withDots cs with
  | case1 rest ih | case2 rest ih =>
      intro u v x y hcs hother
      rcases u with _ | ⟨a, _ | ⟨b, _ | ⟨c, u⟩⟩⟩
      · simp at hcs
        simp [← hcs.1, ← hcs.2.1] at hother
      · simp at hcs
      · simp at hcs
      · simp at hcs
        exact List.mem_cons_of_mem _ (ih hcs.2.2.2 hother)
  | case3 c rest _ _ ih =>
      intro u v x y hcs hother
      cases u with
      | nil =>
          obtain ⟨rfl, -⟩ := List.cons.inj hcs
          exact List.mem_cons_self
      | cons a u => exact List.mem_cons_of_mem _ (ih (List.cons.inj hcs).2 hother)
  | case4 =>
      intro u v x y hcs
      cases u <;> cases hcs

theorem percent_not_mem_of_isDots {segment : List Char} (h : IsDots segment) :
    '%' ∉ withDots segment := by
  rcases h with h | h <;> rw [h] <;> decide

/-- Escapes do not make dots. -/
theorem isDots_of_encoded (hdot : isPlain escaped '.' = true) {segment : List Char}
    (h : IsDots (encoded escaped segment)) : IsDots segment := by
  by_cases hplain : ∀ c ∈ segment, isPlain escaped c = true
  · rwa [encoded_plain hplain] at h
  · exfalso
    simp only [not_forall] at hplain
    obtain ⟨c, hc, hescaped⟩ := hplain
    obtain ⟨before, after, rfl⟩ := List.append_of_mem hc
    obtain ⟨x, y, rest, hescape, hother⟩ :=
      encodedChar_escape hdot (Bool.eq_false_iff.2 hescaped)
    have hparts : encoded escaped (before ++ c :: after) =
        encoded escaped before ++ '%' :: x :: y :: (rest ++ encoded escaped after) := by
      rw [encoded_append, encoded_cons, hescape]
      rfl
    exact percent_not_mem_of_isDots h (percent_mem_withDots hparts hother)

theorem segments_ne_nil (cs : List Char) : segments cs ≠ [] := by
  cases cs with
  | nil => exact List.cons_ne_nil _ _
  | cons c cs =>
      rw [segments]
      split
      · exact List.cons_ne_nil _ _
      · split <;> exact List.cons_ne_nil _ _

theorem segments_cons_slash {c : Char} (hc : isSlash c = true) (cs : List Char) :
    segments (c :: cs) = [] :: segments cs := by
  rw [segments, if_pos hc]

theorem segments_cons_other {c : Char} (hc : isSlash c = false) {cs first : List Char}
    {others : List (List Char)} (h : segments cs = first :: others) :
    segments (c :: cs) = (c :: first) :: others := by
  rw [segments, if_neg (by rw [hc]; exact Bool.false_ne_true), h]

/-- A path is cut at a slash into the segments before it and those behind. -/
theorem segments_append (as : List Char) {c : Char} (hc : isSlash c = true) (bs : List Char) :
    segments (as ++ c :: bs) = segments as ++ segments bs := by
  induction as with
  | nil => exact segments_cons_slash hc bs
  | cons a as ih =>
      rw [List.cons_append]
      cases ha : isSlash a with
      | true => rw [segments_cons_slash ha, segments_cons_slash ha, ih, List.cons_append]
      | false =>
          obtain ⟨first, others, hsegments⟩ := List.exists_cons_of_ne_nil (segments_ne_nil as)
          rw [hsegments, List.cons_append] at ih
          rw [segments_cons_other ha ih, segments_cons_other ha hsegments, List.cons_append]

theorem isSlash_of_mem_segments {cs segment : List Char} (h : segment ∈ segments cs) :
    ∀ c ∈ segment, isSlash c = false := by
  induction cs generalizing segment with
  | nil =>
      obtain rfl : segment = [] := by simpa [segments] using h
      nofun
  | cons a cs ih =>
      cases ha : isSlash a with
      | true =>
          rw [segments_cons_slash ha] at h
          rcases List.mem_cons.1 h with rfl | h
          · nofun
          · exact ih h
      | false =>
          obtain ⟨first, others, hsegments⟩ := List.exists_cons_of_ne_nil (segments_ne_nil cs)
          rw [segments_cons_other ha hsegments] at h
          rw [hsegments] at ih
          rcases List.mem_cons.1 h with rfl | h
          · intro c hc
            rcases List.mem_cons.1 hc with rfl | hc
            · exact ha
            · exact ih List.mem_cons_self c hc
          · exact ih (List.mem_cons_of_mem first h)

/-- Segments with a slash before each. -/
def joined (segments : List (List Char)) : List Char :=
  segments.flatMap ('/' :: ·)

theorem joined_cons (segment : List Char) (others : List (List Char)) :
    joined (segment :: others) = '/' :: (segment ++ joined others) := rfl

theorem joined_append (as bs : List (List Char)) : joined (as ++ bs) = joined as ++ joined bs :=
  List.flatMap_append

/-- A path without backslashes is its segments. -/
theorem joined_segments {cs : List Char} (h : '\\' ∉ cs) : joined (segments cs) = '/' :: cs := by
  induction cs with
  | nil => rfl
  | cons c cs ih =>
      obtain ⟨hc, hcs⟩ := not_or.1 (fun hmem => h (List.mem_cons.2 hmem))
      have ih := ih hcs
      cases hslash : isSlash c with
      | true =>
          obtain rfl : c = '/' := by
            simp only [isSlash, Bool.or_eq_true, beq_iff_eq] at hslash
            exact hslash.resolve_right fun heq => hc heq.symm
          rw [segments_cons_slash hslash, joined_cons, ih, List.nil_append]
      | false =>
          obtain ⟨first, others, hsegments⟩ := List.exists_cons_of_ne_nil (segments_ne_nil cs)
          rw [hsegments, joined_cons] at ih
          rw [segments_cons_other hslash hsegments, joined_cons, List.cons_append,
            (List.cons.inj ih).2]

/-- Segments without slashes are those of the path they make. -/
theorem segments_joined {parts : List (List Char)}
    (h : ∀ segment ∈ parts, ∀ c ∈ segment, isSlash c = false) :
    segments (joined parts) = [] :: parts := by
  have hprefix : ∀ (segment : List Char) {cs first : List Char} {others : List (List Char)},
      (∀ c ∈ segment, isSlash c = false) → segments cs = first :: others →
      segments (segment ++ cs) = (segment ++ first) :: others := by
    intro segment cs first others hslash hsegments
    induction segment with
    | nil => exact hsegments
    | cons c segment ih =>
        exact segments_cons_other (hslash c List.mem_cons_self)
          (ih fun d hd => hslash d (List.mem_cons_of_mem c hd))
  induction parts with
  | nil => rfl
  | cons segment parts ih =>
      have ih := ih fun s hs => h s (List.mem_cons_of_mem segment hs)
      rw [joined_cons, segments_cons_slash (by decide),
        hprefix segment (h segment List.mem_cons_self) ih, List.append_nil]

/-! ## Resolving -/

/-- The segments so far after some that are not the last ones. -/
def descend (done : List (List Char)) : List (List Char) → List (List Char)
  | [] => done
  | segment :: rest =>
    if withDots segment = ['.', '.'] then descend (done.drop 1) rest
    else if withDots segment = ['.'] then descend done rest
    else descend (segment :: done) rest

theorem resolve_append (as : List (List Char)) {bs : List (List Char)} (hbs : bs ≠ [])
    (done : List (List Char)) : resolve done (as ++ bs) = resolve (descend done as) bs := by
  induction as generalizing done with
  | nil => rfl
  | cons segment as ih =>
      have hrest : as ++ bs ≠ [] := List.append_ne_nil_of_right_ne_nil as hbs
      rw [List.cons_append, resolve, descend]
      simp only [if_neg hrest, ih]
      split_ifs <;> rfl

theorem resolve_undotted {parts : List (List Char)} (h : ∀ segment ∈ parts, ¬ IsDots segment)
    (done : List (List Char)) : resolve done parts = done.reverse ++ parts := by
  induction parts generalizing done with
  | nil => rw [resolve, List.append_nil]
  | cons segment parts ih =>
      obtain ⟨hone, htwo⟩ := not_or.1 (h segment List.mem_cons_self)
      rw [resolve, if_neg htwo, if_neg hone, ih fun s hs => h s (List.mem_cons_of_mem segment hs),
        List.reverse_cons, List.append_assoc, List.singleton_append]

/-- What is left is empty or was there, and it is no segment of dots. -/
theorem mem_resolve {parts done : List (List Char)} {segment : List Char}
    (h : segment ∈ resolve done parts) :
    segment ∈ done ∨ segment = [] ∨ (segment ∈ parts ∧ ¬ IsDots segment) := by
  induction parts generalizing done with
  | nil => exact Or.inl (List.mem_reverse.1 h)
  | cons first parts ih =>
      have hstep : ∃ next, segment ∈ resolve next parts ∧
          ∀ s ∈ next, s ∈ done ∨ s = [] ∨ (s = first ∧ ¬ IsDots first) := by
        rw [resolve] at h
        split_ifs at h with htwo hlast hone hlast
        · refine ⟨_, h, fun s hs => ?_⟩
          rcases List.mem_cons.1 hs with rfl | hs
          · exact Or.inr (Or.inl rfl)
          · exact Or.inl (List.mem_of_mem_drop hs)
        · exact ⟨_, h, fun s hs => Or.inl (List.mem_of_mem_drop hs)⟩
        · refine ⟨_, h, fun s hs => ?_⟩
          rcases List.mem_cons.1 hs with rfl | hs
          · exact Or.inr (Or.inl rfl)
          · exact Or.inl hs
        · exact ⟨_, h, fun s hs => Or.inl hs⟩
        · refine ⟨_, h, fun s hs => ?_⟩
          rcases List.mem_cons.1 hs with rfl | hs
          · exact Or.inr (Or.inr ⟨rfl, fun hdots => hdots.elim hone htwo⟩)
          · exact Or.inl hs
      obtain ⟨next, hnext, hfrom⟩ := hstep
      rcases ih hnext with hmem | hempty | ⟨hmem, hundotted⟩
      · rcases hfrom segment hmem with hdone | hempty | ⟨rfl, hundotted⟩
        · exact Or.inl hdone
        · exact Or.inr (Or.inl hempty)
        · exact Or.inr (Or.inr ⟨List.mem_cons_self, hundotted⟩)
      · exact Or.inr (Or.inl hempty)
      · exact Or.inr (Or.inr ⟨List.mem_cons_of_mem first hmem, hundotted⟩)

/-! ## Paths in the normal form -/

/-- A path that is its own normal form. -/
structure KeptPath (path : List Char) : Prop where
  plain : ∀ c ∈ path, isPlain pathEscaped c = true
  slashes : '\\' ∉ path
  undotted : ∀ segment ∈ segments path, ¬ IsDots segment

instance (path : List Char) : Decidable (KeptPath path) :=
  decidable_of_iff (path.all (isPlain pathEscaped) = true ∧ '\\' ∉ path ∧
      ∀ segment ∈ segments path, ¬ IsDots segment)
    ⟨fun ⟨hplain, hslashes, hdots⟩ => ⟨List.all_eq_true.1 hplain, hslashes, hdots⟩,
      fun h => ⟨List.all_eq_true.2 h.plain, h.slashes, h.undotted⟩⟩

/-- A path without the slash that it begins with. -/
def unslashed : List Char → List Char
  | c :: rest => if isSlash c then rest else c :: rest
  | [] => []

theorem pathTarget_eq (path : List Char) :
    pathTarget path =
      joined ((resolve [] (segments (unslashed path))).map (encoded pathEscaped)) := by
  unfold joined
  rw [List.flatMap_map]
  cases path <;> rfl

theorem encoded_resolved {path segment : List Char} (h : segment ∈ resolve [] (segments path)) :
    (∀ c ∈ encoded pathEscaped segment, isSlash c = false) ∧
      ¬ IsDots (encoded pathEscaped segment) := by
  have hslash : ∀ d ∈ escapeChars, isSlash d = false := by simp [escapeChars, isSlash]
  rcases mem_resolve h with hmem | rfl | ⟨hmem, hundotted⟩
  · cases hmem
  · exact ⟨nofun, by decide⟩
  · refine ⟨fun d hd => ?_, fun hdots => hundotted (isDots_of_encoded (by decide) hdots)⟩
    obtain ⟨c, hc, hd⟩ := List.mem_flatMap.1 hd
    rcases mem_encodedChar hd with ⟨rfl, -⟩ | hescape
    · exact isSlash_of_mem_segments hmem d hc
    · exact hslash d hescape

/-- Segments with no slash that are joined make a path of plain characters. -/
theorem mem_joined_encoded {parts : List (List Char)}
    (hparts : ∀ segment ∈ parts, ∀ c ∈ encoded pathEscaped segment, isSlash c = false) {c : Char}
    (hc : c ∈ joined (parts.map (encoded pathEscaped))) :
    c ≠ '\\' ∧ isPlain pathEscaped c = true := by
  have hplain : ∀ d ∈ escapeChars, isPlain pathEscaped d = true :=
    List.all_eq_true.1 (show escapeChars.all (isPlain pathEscaped) = true by decide)
  rw [joined, List.flatMap_map] at hc
  obtain ⟨segment, hsegment, hc⟩ := List.mem_flatMap.1 hc
  rcases List.mem_cons.1 hc with rfl | hc
  · decide
  · refine ⟨?_, isPlain_of_mem_encoded hplain hc⟩
    rintro rfl
    exact absurd (hparts segment hsegment _ hc) (by decide)

theorem keptPath_pathTarget (path : List Char) : KeptPath (pathTarget path) := by
  rw [pathTarget_eq]
  have hparts (segment : List Char) (h : segment ∈ resolve [] (segments (unslashed path))) :=
    encoded_resolved h
  generalize resolve [] (segments (unslashed path)) = parts at hparts
  have hchars := fun c => mem_joined_encoded (c := c) fun segment hsegment =>
    (hparts segment hsegment).1
  constructor
  case plain => exact fun c hc => (hchars c hc).2
  case slashes => exact fun hc => (hchars _ hc).1 rfl
  case undotted =>
    rw [segments_joined]
    · intro segment hsegment
      rcases List.mem_cons.1 hsegment with rfl | hsegment
      · decide
      · obtain ⟨part, hpart, rfl⟩ := List.mem_map.1 hsegment
        exact (hparts part hpart).2
    · intro segment hsegment
      obtain ⟨part, hpart, rfl⟩ := List.mem_map.1 hsegment
      exact (hparts part hpart).1

/-- A path in the normal form behind segments that are left. -/
theorem joined_resolve {path : List Char} (h : KeptPath ('/' :: path))
    (done : List (List Char)) :
    joined ((resolve done (segments path)).map (encoded pathEscaped)) =
      joined (done.reverse.map (encoded pathEscaped)) ++ '/' :: path := by
  have hsegments : segments ('/' :: path) = [] :: segments path :=
    segments_cons_slash (by decide) path
  have hundotted : ∀ segment ∈ segments path, ¬ IsDots segment := fun segment hsegment =>
    h.undotted segment (hsegments ▸ List.mem_cons_of_mem [] hsegment)
  have hjoined := joined_segments fun hmem => h.slashes (List.mem_cons_of_mem '/' hmem)
  have hsame : (segments path).map (encoded pathEscaped) = segments path := by
    refine (List.map_congr_left fun segment hsegment => ?_).trans (List.map_id _)
    refine encoded_plain fun c hc => h.plain c ?_
    rw [← hjoined]
    exact List.mem_flatMap.2 ⟨segment, hsegment, List.mem_cons_of_mem '/' hc⟩
  rw [resolve_undotted hundotted, List.map_append, joined_append, hsame, hjoined]

theorem pathTarget_kept {path : List Char} (h : KeptPath ('/' :: path)) :
    pathTarget ('/' :: path) = '/' :: path := by
  rw [pathTarget_eq]
  exact joined_resolve h []

/-- What is left of a path before a path in the normal form does not depend on the latter. -/
theorem pathTarget_behind {before : List Char} (h : ∀ c ∈ before.head?, isSlash c = true) :
    ∃ front, ∀ path, KeptPath ('/' :: path) →
      pathTarget (before ++ '/' :: path) = front ++ '/' :: path := by
  cases before with
  | nil => exact ⟨[], fun path hpath => pathTarget_kept hpath⟩
  | cons c before =>
      refine ⟨joined ((descend [] (segments before)).reverse.map (encoded pathEscaped)),
        fun path hpath => ?_⟩
      have hwhole : unslashed (c :: before ++ '/' :: path) = before ++ '/' :: path :=
        if_pos (h c rfl)
      rw [pathTarget_eq, hwhole, segments_append _ (by decide),
        resolve_append _ (segments_ne_nil path), joined_resolve hpath]

/-! ## Targets in the normal form -/

/-- The part of a target before its query, and the query with the mark before it. -/
def pathPart (target : List Char) : List Char :=
  target.takeWhile (· ≠ '?')

def queryPart (target : List Char) : List Char :=
  target.dropWhile (· ≠ '?')

theorem pathPart_append_queryPart (target : List Char) :
    pathPart target ++ queryPart target = target :=
  List.takeWhile_append_dropWhile

/-- A target that is its own normal form. -/
structure KeptTarget (target : List Char) : Prop where
  path : KeptPath (pathPart target)
  query : ∀ c ∈ queryPart target, isPlain queryEscaped c = true

instance (target : List Char) : Decidable (KeptTarget target) :=
  decidable_of_iff (KeptPath (pathPart target) ∧
      (queryPart target).all (isPlain queryEscaped) = true)
    ⟨fun ⟨hpath, hquery⟩ => ⟨hpath, List.all_eq_true.1 hquery⟩,
      fun h => ⟨h.path, List.all_eq_true.2 h.query⟩⟩

/-- The normal form of a target. -/
def normal (target : List Char) : List Char :=
  pathTarget (pathPart target) ++ encoded queryEscaped (queryPart target)

theorem forall_ne_of_not_mem {c : Char} {cs : List Char} (h : c ∉ cs) :
    ∀ d ∈ cs, decide (d ≠ c) = true :=
  fun d hd => decide_eq_true fun heq : d = c => h (heq ▸ hd)

/-- A path without a question mark and what begins with one are told from each other. -/
theorem parts_of_append {path query : List Char} (hpath : '?' ∉ path)
    (hquery : ∀ c ∈ query.head?, c = '?') :
    pathPart (path ++ query) = path ∧ queryPart (path ++ query) = query := by
  have hall := forall_ne_of_not_mem hpath
  unfold pathPart queryPart
  rw [List.takeWhile_append_of_pos hall, List.dropWhile_append_of_pos hall]
  cases query with
  | nil => exact ⟨List.append_nil path, rfl⟩
  | cons c query =>
      obtain rfl : c = '?' := hquery c rfl
      exact ⟨List.append_nil path, rfl⟩

theorem head?_queryPart (target : List Char) : ∀ c ∈ (queryPart target).head?, c = '?' := by
  intro c hc
  have hnot := List.head?_dropWhile_not (fun c => decide (c ≠ '?')) target
  unfold queryPart at hc
  rw [Option.mem_def.1 hc] at hnot
  simpa using hnot

theorem head?_encoded_queryPart (target : List Char) :
    ∀ c ∈ (encoded queryEscaped (queryPart target)).head?, c = '?' := by
  have hhead := head?_queryPart target
  cases hquery : queryPart target with
  | nil => nofun
  | cons d query =>
      obtain rfl : d = '?' := hhead d (by rw [hquery]; rfl)
      rw [encoded_cons, encodedChar_plain (by decide)]
      rintro c ⟨⟩
      rfl

theorem KeptPath.no_mark {path : List Char} (h : KeptPath path) : '?' ∉ path := by
  intro hmem
  have hplain := h.plain _ hmem
  revert hplain
  decide

/-- A normal form is its own normal form. -/
theorem keptTarget_normal (target : List Char) : KeptTarget (normal target) := by
  have hplain : ∀ d ∈ escapeChars, isPlain queryEscaped d = true :=
    List.all_eq_true.1 (show escapeChars.all (isPlain queryEscaped) = true by decide)
  have hkept := keptPath_pathTarget (pathPart target)
  obtain ⟨hpath, hquery⟩ := parts_of_append hkept.no_mark (head?_encoded_queryPart target)
  constructor
  case path =>
    rw [normal, hpath]
    exact hkept
  case query =>
    rw [normal, hquery]
    exact fun c hc => isPlain_of_mem_encoded hplain hc

/-- The path of a target that begins with a slash does so too. -/
theorem pathPart_cons (target : List Char) :
    pathPart ('/' :: target) = '/' :: pathPart target ∧
      queryPart ('/' :: target) = queryPart target :=
  ⟨rfl, rfl⟩

theorem normal_kept {target : List Char} (h : KeptTarget ('/' :: target)) :
    normal ('/' :: target) = '/' :: target := by
  have hpath : pathTarget ('/' :: pathPart target) = '/' :: pathPart target :=
    pathTarget_kept h.path
  rw [normal, encoded_plain h.query, (pathPart_cons target).1, (pathPart_cons target).2, hpath,
    List.cons_append, pathPart_append_queryPart]

/-- The rest of an address behind its host, when a target is written behind that. -/
theorem normal_behind {before : List Char} (h : ∀ c ∈ before.head?, isSlash c = true)
    (hmark : '?' ∉ before) :
    ∃ front, ∀ target, KeptTarget ('/' :: target) →
      normal (before ++ '/' :: target) = front ++ '/' :: target := by
  obtain ⟨front, hfront⟩ := pathTarget_behind h
  refine ⟨front, fun target htarget => ?_⟩
  have hpath := htarget.path
  rw [(pathPart_cons target).1] at hpath
  have hsplit : before ++ '/' :: target =
      (before ++ '/' :: pathPart target) ++ queryPart target := by
    rw [List.append_assoc, List.cons_append, pathPart_append_queryPart]
  have hunmarked : '?' ∉ before ++ '/' :: pathPart target := fun hmem =>
    (List.mem_append.1 hmem).elim hmark hpath.no_mark
  obtain ⟨hpathPart, hqueryPart⟩ := parts_of_append hunmarked (head?_queryPart target)
  rw [normal, hsplit, hpathPart, hqueryPart, hfront _ hpath,
    encoded_plain ((pathPart_cons target).2 ▸ htarget.query), List.append_assoc,
    List.cons_append, pathPart_append_queryPart]

/-- Behind a question mark everything is kept, and so is the mark. -/
theorem length_lt_length_normal {before : List Char} (hmark : '?' ∈ before)
    (target : List Char) : target.length < (normal (before ++ target)).length := by
  obtain ⟨path, query, rfl, hpath⟩ : ∃ path query, before = path ++ '?' :: query ∧ '?' ∉ path :=
    List.eq_append_cons_of_mem hmark
  have hhead : ∀ c ∈ ('?' :: (query ++ target)).head?, c = '?' := by
    rintro c ⟨⟩
    rfl
  have hquery := (parts_of_append hpath hhead).2
  have hdot : isPlain queryEscaped '.' = true := by decide
  have hlong := length_le_length_encoded hdot ('?' :: (query ++ target))
  rw [List.append_assoc, List.cons_append, normal, hquery, List.length_append]
  simp only [List.length_cons, List.length_append] at hlong
  omega

/-- A target that is written behind the host, and perhaps more, is kept just if it is its own
normal form and nothing is left of what stands before it. -/
theorem normal_eq_iff {before : List Char} (h : ∀ c ∈ before.head?, isSlash c = true ∨ c = '?')
    (target : List Char) :
    normal (before ++ '/' :: target) = '/' :: target ↔
      normal (before ++ ['/']) = ['/'] ∧ KeptTarget ('/' :: target) := by
  by_cases hmark : '?' ∈ before
  · have hlong := length_lt_length_normal hmark ('/' :: target)
    have hlong' := length_lt_length_normal hmark ['/']
    constructor
    · intro heq
      rw [heq] at hlong
      exact absurd hlong (Nat.lt_irrefl _)
    · rintro ⟨heq, -⟩
      rw [heq] at hlong'
      exact absurd hlong' (Nat.lt_irrefl _)
  · have hslash : ∀ c ∈ before.head?, isSlash c = true := fun c hc =>
      (h c hc).resolve_right fun heq => hmark (heq ▸ List.mem_of_mem_head? hc)
    obtain ⟨front, hfront⟩ := normal_behind hslash hmark
    have hroot : KeptTarget ['/'] := keptTarget_normal []
    constructor
    · intro heq
      have hkept : KeptTarget ('/' :: target) := heq ▸ keptTarget_normal _
      rw [hfront target hkept] at heq
      obtain rfl : front = [] := List.append_left_eq_self.1 heq
      exact ⟨hfront [] hroot, hkept⟩
    · rintro ⟨heq, hkept⟩
      rw [hfront [] hroot] at heq
      obtain rfl : front = [] := List.append_left_eq_self.1 heq
      exact hfront target hkept

end Tradebook.Http
