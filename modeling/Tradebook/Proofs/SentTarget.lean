import Tradebook.Proofs.NormalTarget

/-!
# Requests that are sent as they are written

The address of a request is that of the exchange with a path behind it. The server sees a target,
and the target is the path just if the path is in the normal form (`Kept`) and the address of the
exchange has nothing behind its host that is left (`Bare`): `target?_eq_path_iff`. It does not
matter what the address looks like otherwise. If it has no host, then the first part of the path
becomes one, and the target is short of it (`hostless`). If it has a number sign, then no path
behind it is ever sent (`target?_hash`).
-/

namespace Tradebook.Http

/-! ## Addresses -/

theorem takeWhile_append_stop {p : Char → Bool} {c : Char} (hc : p c = false)
    (as bs : List Char) : (as ++ c :: bs).takeWhile p = as.takeWhile p := by
  rw [List.takeWhile_append, List.takeWhile_cons_of_neg (by rw [hc]; exact Bool.false_ne_true)]
  split
  · next hall => rw [List.append_nil, List.IsPrefix.eq_of_length (List.takeWhile_prefix p) hall]
  · rfl

theorem dropWhile_append_stop {p : Char → Bool} {c : Char} (hc : p c = false)
    (as bs : List Char) : (as ++ c :: bs).dropWhile p = as.dropWhile p ++ c :: bs := by
  rw [List.dropWhile_append, List.dropWhile_cons_of_neg (by rw [hc]; exact Bool.false_ne_true)]
  split
  · next hnone => rw [List.isEmpty_iff.1 hnone, List.nil_append]
  · rfl

/-- A blank or something that is none at all. -/
def isOuter (c : Char) : Bool :=
  decide (c.toNat ≤ 32)

/-- What is left of the beginning of an address, and of its end. -/
def front (cs : List Char) : List Char :=
  (cs.dropWhile isOuter).filter (!isDropped ·)

def rear (cs : List Char) : List Char :=
  (cs.reverse.dropWhile isOuter).reverse.filter (!isDropped ·)

theorem isDropped_of_printable {c : Char} (h : 32 < c.toNat) : isDropped c = false := by
  unfold isDropped
  simp only [Bool.or_eq_false_iff, beq_eq_false_iff_ne]
  refine ⟨⟨?_, ?_⟩, ?_⟩ <;> rintro rfl <;> revert h <;> decide

theorem cleaned_append {c : Char} (hc : 32 < c.toNat) (as bs : List Char) :
    cleaned (as ++ c :: bs) = front as ++ c :: rear bs := by
  have hstop : isOuter c = false := decide_eq_false (Nat.not_le.2 hc)
  have hwhole : ((((as ++ c :: bs).dropWhile isOuter).reverse.dropWhile isOuter).reverse) =
      as.dropWhile isOuter ++ c :: (bs.reverse.dropWhile isOuter).reverse := by
    rw [dropWhile_append_stop hstop, List.reverse_append, List.reverse_cons, List.append_assoc,
      List.singleton_append, dropWhile_append_stop hstop, List.reverse_append, List.reverse_cons,
      List.reverse_reverse, List.append_assoc, List.singleton_append]
  show List.filter (!isDropped ·)
    (((as ++ c :: bs).dropWhile isOuter).reverse.dropWhile isOuter).reverse = _
  rw [hwhole, List.filter_append, List.filter_cons_of_pos (by rw [isDropped_of_printable hc]; rfl)]
  rfl

/-- What stands behind the host of an address, if there is a host. -/
def afterHost? (cs : List Char) : Option (List Char) :=
  let rest := (cs.dropWhile isSlash).takeWhile (· ≠ '#')
  let ends := fun c => isSlash c || c == '?'
  if rest.takeWhile (!ends ·) = [] then none else some (rest.dropWhile (!ends ·))

theorem target?_eq (url : String) :
    target? url =
      ((afterScheme? (cleaned url.toList)).bind afterHost?).map (String.ofList ∘ normal) := by
  unfold target?
  cases afterScheme? (cleaned url.toList) with
  | none => rfl
  | some rest =>
      simp only [Option.bind_eq_bind, Option.bind_some]
      unfold afterHost?
      dsimp only
      split
      · rfl
      · generalize List.dropWhile _ (List.takeWhile _ _) = behind
        have hhead := head?_queryPart behind
        have hdrop : behind.dropWhile (fun c => decide (c ≠ '?')) = queryPart behind := rfl
        rw [hdrop, Option.map_some, Function.comp, normal]
        cases hquery : queryPart behind with
        | nil =>
            rw [encoded, List.flatMap_nil, List.append_nil]
            rfl
        | cons c query =>
            obtain rfl : c = '?' := hhead c (by rw [hquery]; rfl)
            rw [encoded_cons, encodedChar_plain (by decide)]
            rfl

/-- The scheme of an address ends before its first slash or number sign. -/
theorem afterScheme?_append {c : Char} (hc : c = '/' ∨ c = '#') (cs rest : List Char) :
    afterScheme? (cs ++ c :: rest) = (afterScheme? cs).map (· ++ c :: rest) := by
  by_cases hcolon : ':' ∈ cs
  · obtain ⟨scheme, behind, rfl, hscheme⟩ := List.eq_append_cons_of_mem hcolon
    have hall : scheme.takeWhile (· ≠ ':') = scheme :=
      List.takeWhile_eq_self_iff.2 (forall_ne_of_not_mem hscheme)
    unfold afterScheme?
    rw [List.append_assoc, List.cons_append, takeWhile_append_stop (by decide),
      takeWhile_append_stop (by decide), hall]
    dsimp only
    split
    · rw [List.length_map, List.drop_left, List.drop_left]
      rfl
    · rfl
  · -- a scheme has no slash and no number sign, and what has no colon has no scheme
    have hall := forall_ne_of_not_mem hcolon
    have hcs : afterScheme? cs = none := by
      unfold afterScheme?
      rw [List.takeWhile_eq_self_iff.2 hall]
      dsimp only
      rw [List.length_map, List.drop_length, ite_self]
    have hletter : c.toLower ∈ ((cs ++ c :: rest).takeWhile (· ≠ ':')).map Char.toLower := by
      rw [List.takeWhile_append_of_pos hall]
      refine List.mem_map_of_mem (List.mem_append_right cs ?_)
      rcases hc with rfl | rfl <;> exact List.mem_cons_self
    rw [hcs, Option.map_none, afterScheme?]
    refine if_neg ?_
    rintro (heq | heq) <;> rw [heq] at hletter <;> revert hletter <;>
      rcases hc with rfl | rfl <;> decide

theorem mem_of_afterScheme? {cs rest : List Char} (h : afterScheme? cs = some rest) {c : Char}
    (hc : c ∈ rest) : c ∈ cs := by
  unfold afterScheme? at h
  dsimp only at h
  split at h
  · split at h
    · next d behind hdrop =>
        obtain rfl := Option.some.inj h
        exact List.mem_of_mem_drop (hdrop ▸ List.mem_cons_of_mem d hc)
    · cases h
  · cases h

/-- A number sign ends an address. -/
theorem afterHost?_hash (cs rest : List Char) : afterHost? (cs ++ '#' :: rest) = afterHost? cs := by
  unfold afterHost?
  rw [dropWhile_append_stop (by decide), takeWhile_append_stop (by decide)]

/-- A host ends at a slash or a question mark. -/
theorem head?_behind_host (cs : List Char) :
    ∀ c ∈ (cs.dropWhile fun c => !(isSlash c || c == '?')).head?, isSlash c = true ∨ c = '?' := by
  intro c hc
  have hnot := List.head?_dropWhile_not (fun c => !(isSlash c || c == '?')) cs
  rw [Option.mem_def.1 hc] at hnot
  simpa only [Bool.not_eq_false', Bool.or_eq_true, beq_iff_eq] using hnot

/-- The three ways in which an address goes on with a path: behind its host, not at all, and with
the path where the host should be. -/
theorem afterHost?_append {cs : List Char} (hhash : '#' ∉ cs) :
    (∃ before : List Char, (∀ c ∈ before.head?, isSlash c = true ∨ c = '?') ∧
      ∀ rest, afterHost? (cs ++ '/' :: rest) = some (before ++ '/' :: rest.takeWhile (· ≠ '#'))) ∨
    (∀ rest, afterHost? (cs ++ '/' :: rest) = none) ∨
    ∀ rest, afterHost? (cs ++ '/' :: rest) = afterHost? rest := by
  cases hhost : cs.dropWhile isSlash with
  | nil =>
      refine Or.inr (Or.inr fun rest => ?_)
      unfold afterHost?
      rw [List.dropWhile_append, hhost, List.isEmpty_nil, if_pos rfl,
        List.dropWhile_cons_of_pos (by decide)]
  | cons d host =>
      have hall : ∀ c ∈ d :: host, decide (c ≠ '#') = true := fun c hc =>
        forall_ne_of_not_mem hhash c ((List.dropWhile_sublist isSlash).subset (hhost ▸ hc))
      have hrest : ∀ rest, ((cs ++ '/' :: rest).dropWhile isSlash).takeWhile (· ≠ '#') =
          d :: host ++ '/' :: rest.takeWhile (· ≠ '#') := fun rest => by
        rw [List.dropWhile_append, hhost, List.isEmpty_cons, if_neg Bool.false_ne_true,
          List.takeWhile_append_of_pos hall, List.takeWhile_cons_of_pos (by decide)]
      unfold afterHost?
      simp only [hrest]
      by_cases hnone : (d :: host).takeWhile (fun c => !(isSlash c || c == '?')) = []
      · refine Or.inr (Or.inl fun rest => ?_)
        rw [takeWhile_append_stop (by decide), if_pos hnone]
      · refine Or.inl ⟨(d :: host).dropWhile fun c => !(isSlash c || c == '?'), ?_, fun rest => ?_⟩
        · exact head?_behind_host (d :: host)
        · rw [takeWhile_append_stop (by decide), if_neg hnone,
            dropWhile_append_stop (by decide)]

/-! ## Targets that are sent as they are written -/

/-- The characters of a target in the normal form are visible, and none is a number sign. -/
theorem KeptTarget.visible {target : List Char} (h : KeptTarget target) {c : Char}
    (hc : c ∈ target) : 32 < c.toNat ∧ c ≠ '#' := by
  have hplain : ∀ {escaped : List Char}, ' ' ∈ escaped → '#' ∈ escaped →
      isPlain escaped c = true → 32 < c.toNat ∧ c ≠ '#' := by
    intro escaped hblank hhash hplain
    simp only [isPlain, Bool.and_eq_true, decide_eq_true_eq, Bool.not_eq_true',
      List.contains_eq_mem, decide_eq_false_iff_not] at hplain
    obtain ⟨⟨hlow, -⟩, hout⟩ := hplain
    refine ⟨lt_of_le_of_ne hlow fun heq => ?_, fun heq => hout (heq ▸ hhash)⟩
    obtain rfl : c = ' ' := Char.toNat_inj.1 heq.symm
    exact hout hblank
  rw [← pathPart_append_queryPart target] at hc
  rcases List.mem_append.1 hc with hc | hc
  · exact hplain (by decide) (by decide) (h.path.plain c hc)
  · exact hplain (by decide) (by decide) (h.query c hc)

/-- Nothing is taken off the end of a target in the normal form. -/
theorem KeptTarget.rear_eq {target : List Char} (h : KeptTarget ('/' :: target)) :
    rear target = target ∧ target.takeWhile (· ≠ '#') = target := by
  have hvisible := fun c hc => h.visible (List.mem_cons_of_mem '/' hc : c ∈ '/' :: target)
  constructor
  · have hlast : target.reverse.dropWhile isOuter = target.reverse := by
      rw [List.dropWhile_eq_self_iff]
      intro hpos hout
      have hlast := (hvisible _ (List.mem_reverse.1 (List.getElem_mem hpos))).1
      exact Nat.not_le.2 hlast (of_decide_eq_true hout)
    rw [rear, hlast, List.reverse_reverse, List.filter_eq_self]
    exact fun c hc => by rw [isDropped_of_printable (hvisible c hc).1]; rfl
  · rw [List.takeWhile_eq_self_iff]
    exact fun c hc => decide_eq_true (hvisible c hc).2

/-- What stands behind the host, with what is no part of it. -/
theorem of_afterHost? {target rest : List Char} (hhash : '#' ∉ target)
    (h : afterHost? target = some rest) :
    ∃ before, target = before ++ rest ∧ '?' ∉ before ∧ before ≠ [] ∧
      ∀ c ∈ rest.head?, isSlash c = true ∨ c = '?' := by
  have hall : (target.dropWhile isSlash).takeWhile (· ≠ '#') = target.dropWhile isSlash := by
    rw [List.takeWhile_eq_self_iff]
    exact fun c hc => forall_ne_of_not_mem hhash c ((List.dropWhile_sublist isSlash).subset hc)
  unfold afterHost? at h
  dsimp only at h
  rw [hall] at h
  split at h
  · cases h
  · next hhost =>
      obtain rfl := Option.some.inj h
      refine ⟨target.takeWhile isSlash ++
        (target.dropWhile isSlash).takeWhile fun c => !(isSlash c || c == '?'), ?_, ?_, ?_, ?_⟩
      · rw [List.append_assoc, List.takeWhile_append_dropWhile, List.takeWhile_append_dropWhile]
      · intro hmem
        rcases List.mem_append.1 hmem with hmem | hmem
        · exact absurd (List.mem_takeWhile_imp hmem) (by decide)
        · exact absurd (List.mem_takeWhile_imp hmem) (by decide)
      · exact List.append_ne_nil_of_right_ne_nil _ hhost
      · exact head?_behind_host (target.dropWhile isSlash)

theorem KeptPath.behind {before path : List Char} (h : KeptPath (before ++ '/' :: path)) :
    KeptPath ('/' :: path) where
  plain c hc := h.plain c (List.mem_append_right before hc)
  slashes hmem := h.slashes (List.mem_append_right before hmem)
  undotted segment hsegment := by
    rw [segments_cons_slash (by decide)] at hsegment
    have hall := h.undotted
    rw [segments_append before (by decide)] at hall
    rcases List.mem_cons.1 hsegment with rfl | hsegment
    · decide
    · exact hall segment (List.mem_append_right _ hsegment)

/-- Where the path stands in for the host, it is not the target. -/
theorem hostless {target rest : List Char} (h : KeptTarget ('/' :: target))
    (hrest : afterHost? target = some rest) : normal rest ≠ '/' :: target := by
  intro heq
  have hhash : '#' ∉ target := fun hmem => (h.visible (List.mem_cons_of_mem '/' hmem)).2 rfl
  obtain ⟨before, rfl, hmark, hbefore, hends⟩ := of_afterHost? hhash hrest
  cases rest with
  | nil =>
      have hnil := (List.cons.inj heq).2
      exact hbefore (List.append_eq_nil_iff.1 hnil.symm).1
  | cons c rest =>
      have hall := forall_ne_of_not_mem hmark
      have hpathPart : pathPart (before ++ c :: rest) = before ++ pathPart (c :: rest) :=
        List.takeWhile_append_of_pos hall
      have hqueryPart : queryPart (before ++ c :: rest) = queryPart (c :: rest) :=
        List.dropWhile_append_of_pos hall
      have hpath := h.path
      rw [(pathPart_cons _).1, hpathPart] at hpath
      have hc := hends c rfl
      simp only [isSlash, Bool.or_eq_true, beq_iff_eq, or_assoc] at hc
      rcases hc with rfl | rfl | rfl
      · -- what stands behind a host with a slash is in the normal form, and shorter
        have hkept : KeptTarget ('/' :: rest) := by
          refine ⟨?_, ?_⟩
          · rw [(pathPart_cons rest).1] at hpath ⊢
            exact (List.cons_append ▸ hpath : KeptPath ('/' :: before ++ '/' :: _)).behind
          · have hquery := h.query
            rwa [(pathPart_cons _).2, hqueryPart] at hquery
        rw [normal_kept hkept] at heq
        have hlength := congrArg List.length (List.cons.inj heq).2
        rw [List.length_append, List.length_cons] at hlength
        omega
      · exact hpath.slashes (List.mem_cons_of_mem '/' (List.mem_append_right _ List.mem_cons_self))
      · obtain ⟨d, others, rfl⟩ := List.exists_cons_of_ne_nil hbefore
        have hsecond : some '?' = some d := congrArg List.head? (List.cons.inj heq).2
        exact hmark (Option.some.inj hsecond ▸ List.mem_cons_self)

/-- The path of a request that is sent as it is written: in the normal form. -/
def Kept (path : String) : Prop :=
  KeptTarget path.toList

instance (path : String) : Decidable (Kept path) :=
  inferInstanceAs (Decidable (KeptTarget path.toList))

/-- An address with nothing behind its host. -/
def Bare (base : String) : Prop :=
  target? (base ++ "/") = some "/"

instance (base : String) : Decidable (Bare base) :=
  inferInstanceAs (Decidable (target? (base ++ "/") = some "/"))

/-- The target of an address that goes on with a path. -/
theorem target?_append (base : String) (rest : List Char) :
    target? (base ++ String.ofList ('/' :: rest)) =
      ((afterScheme? (front base.toList)).bind fun cs => afterHost? (cs ++ '/' :: rear rest)).map
        (String.ofList ∘ normal) := by
  rw [target?_eq, String.toList_append, String.toList_ofList, cleaned_append (by decide),
    afterScheme?_append (Or.inl rfl), Option.bind_map]
  rfl

/-- An address without a number sign and a path behind it: the path is the target just if it is in
the normal form and the address is bare. -/
theorem target?_eq_path_iff {base path : String} (hpath : path.toList.head? = some '/')
    (hhash : '#' ∉ base.toList) :
    target? (base ++ path) = some path ↔ Bare base ∧ Kept path := by
  obtain ⟨target, htarget⟩ : ∃ target, path.toList = '/' :: target := List.head?_eq_some_iff.1 hpath
  obtain rfl : path = .ofList ('/' :: target) := by rw [← htarget, String.ofList_toList]
  have hroot : rear [] = [] := rfl
  have hbare : Bare base ↔
      target? (base ++ String.ofList ('/' :: [])) = some (String.ofList ['/']) := Iff.rfl
  have hsame : ∀ {as bs : List Char}, some (String.ofList as) = some (String.ofList bs) ↔
      as = bs := by
    intro as bs
    rw [Option.some.injEq, String.ofList_inj]
  rw [hbare, target?_append, target?_append, hroot, Kept, String.toList_ofList]
  cases hscheme : afterScheme? (front base.toList) with
  | none => simp
  | some cs =>
      have hcs : '#' ∉ cs := fun hmem => by
        have hfront := List.mem_of_mem_filter (mem_of_afterScheme? hscheme hmem)
        exact hhash ((List.dropWhile_sublist isOuter).subset hfront)
      rw [Option.bind_some, Option.bind_some]
      rcases afterHost?_append hcs with ⟨before, hbefore, hrest⟩ | hnone | hpast
      · rw [hrest, hrest, Option.map_some, Option.map_some, Function.comp, Function.comp, hsame,
          hsame, List.takeWhile_nil]
        constructor
        · intro heq
          have hkept : KeptTarget ('/' :: target) := heq ▸ keptTarget_normal _
          rw [hkept.rear_eq.1, hkept.rear_eq.2] at heq
          exact (normal_eq_iff hbefore target).1 heq
        · rintro ⟨heq, hkept⟩
          rw [hkept.rear_eq.1, hkept.rear_eq.2]
          exact (normal_eq_iff hbefore target).2 ⟨heq, hkept⟩
      · rw [hnone, hnone]
        simp
      · rw [hpast, hpast]
        constructor
        · intro heq
          obtain ⟨rest, hrest, heq⟩ := Option.map_eq_some_iff.1 heq
          have heq : normal rest = '/' :: target := String.ofList_inj.1 heq
          have hkept : KeptTarget ('/' :: target) := heq ▸ keptTarget_normal rest
          rw [hkept.rear_eq.1] at hrest
          exact absurd heq (hostless hkept hrest)
        · rintro ⟨heq, -⟩
          cases heq

/-- Behind a number sign nothing is sent. -/
theorem target?_hash {base : String} (hhash : '#' ∈ base.toList) (path : String) :
    target? (base ++ path) = target? base := by
  obtain ⟨before, behind, hbase, -⟩ := List.eq_append_cons_of_mem hhash
  have hcleaned : ∀ rest, ((afterScheme? (cleaned (before ++ '#' :: rest))).bind afterHost?) =
      (afterScheme? (front before)).bind afterHost? := by
    intro rest
    rw [cleaned_append (by decide), afterScheme?_append (Or.inr rfl)]
    cases afterScheme? (front before) with
    | none => rfl
    | some cs => exact afterHost?_hash cs _
  rw [target?_eq, target?_eq, String.toList_append, hbase, List.append_assoc, List.cons_append,
    hcleaned, hcleaned]

end Tradebook.Http
