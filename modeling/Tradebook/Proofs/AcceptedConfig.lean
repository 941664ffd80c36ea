import Tradebook.Config.Sessions
import Tradebook.Proofs.BlankText
import Tradebook.Proofs.RunPlan

/-!
# From settings to sessions

Entries are checked one after the other, each against those before it. `Sound` says what a
list of entries has to be, and `FirstOffence` where a list that is not falls short first and for
which reason: one of the two always holds (`sound_or_firstOffence`), and the check tells which
(`check_eq_ok_iff`, `check_eq_error_iff`). Both come from what a check does behind entries that
are in order: it has their names in mind and is otherwise where it began (`check_append`).

Of entries that were accepted, and whose credentials can be found, each becomes a session
(`accounts_of_credentials`), and the names lead to the same places in both lists
(`lookup_together`). That a session of an isolated margin account is always held to a pair is
nothing that the session sees to. It is so because entries without a pair are not accepted.
-/

namespace Tradebook

open Text

namespace SessionEntry

/-- An entry that names a pair, which is more than blanks. -/
def NamesPair (e : SessionEntry) (pair : String) : Prop :=
  e.isolatedMarginSymbol = some pair ∧ ∃ c ∈ pair.toList, isBlank c = false

theorem hasSymbol_iff (e : SessionEntry) : e.hasSymbol = true ↔ ∃ pair, e.NamesPair pair := by
  unfold hasSymbol NamesPair
  cases e.isolatedMarginSymbol with
  | none => simp
  | some pair => simp [← trim_ne_empty_iff]

end SessionEntry

namespace UserConfig

/-! ## The check -/

/-- Entries that can be used: told apart by their names, and with a pair where they need one. -/
structure Sound (entries : List SessionEntry) : Prop where
  names : (entries.map SessionEntry.name).Nodup
  pairs : ∀ e ∈ entries, e.isolatedMargin = true → ∃ pair, e.NamesPair pair

/-- What is wrong with an entry behind others. Its name is looked at first. -/
inductive Offends (before : List SessionEntry) (e : SessionEntry) : ConfigError → Prop
  | name (htaken : e.name ∈ before.map SessionEntry.name) :
      Offends before e (.duplicateSession e.name)
  | pair (hfree : e.name ∉ before.map SessionEntry.name) (hmargin : e.isolatedMargin = true)
      (hnone : ∀ pair, ¬ e.NamesPair pair) :
      Offends before e (.missingIsolatedSymbol e.name)

/-- Where entries fall short first, and for which reason. -/
def FirstOffence (entries : List SessionEntry) (cause : ConfigError) : Prop :=
  ∃ before e after, entries = before ++ e :: after ∧ Sound before ∧ Offends before e cause

theorem Sound.concat {entries : List SessionEntry} {e : SessionEntry} (h : Sound entries)
    (hfree : e.name ∉ entries.map SessionEntry.name)
    (hpair : e.isolatedMargin = true → ∃ pair, e.NamesPair pair) : Sound (entries ++ [e]) where
  names := by
    rw [List.map_append, List.nodup_append']
    exact ⟨h.names, List.nodup_singleton _, by simpa using hfree⟩
  pairs := by
    intro x hx
    rcases List.mem_append.1 hx with hx | hx
    · exact h.pairs x hx
    · rw [List.mem_singleton.1 hx]
      exact hpair

/-- Entries are in order, or there is a first one that is not. -/
theorem sound_or_firstOffence (entries : List SessionEntry) :
    Sound entries ∨ ∃ cause, FirstOffence entries cause := by
  induction entries using List.reverseRecOn with
  | nil => exact Or.inl ⟨List.nodup_nil, by simp⟩
  | append_singleton entries e ih =>
      rcases ih with hsound | ⟨cause, before, x, after, rfl, hbefore, hx⟩
      · by_cases hname : e.name ∈ entries.map SessionEntry.name
        · exact Or.inr ⟨_, entries, e, [], rfl, hsound, .name hname⟩
        · by_cases hpair : e.isolatedMargin = true → ∃ pair, e.NamesPair pair
          · exact Or.inl (hsound.concat hname hpair)
          · obtain ⟨hmargin, hnone⟩ := Classical.not_imp.1 hpair
            exact Or.inr ⟨_, entries, e, [], rfl, hsound,
              .pair hname hmargin fun pair h => hnone ⟨pair, h⟩⟩
      · exact Or.inr ⟨cause, before, x, after ++ [e], by simp, hbefore, hx⟩

/-- Behind entries that are in order the check goes on with their names in mind. -/
theorem check_append (before : List SessionEntry) {entries : List SessionEntry}
    (h : Sound (before ++ entries)) (rest : List SessionEntry) :
    check (before.map SessionEntry.name).reverse (entries ++ rest) =
      check ((before ++ entries).map SessionEntry.name).reverse rest := by
  induction entries generalizing before with
  | nil => rw [List.append_nil, List.nil_append]
  | cons e entries ih =>
      have hnew : e.name ∉ before.map SessionEntry.name := by
        intro hmem
        have hnames := h.names
        rw [List.map_append, List.map_cons] at hnames
        exact List.disjoint_of_nodup_append hnames hmem List.mem_cons_self
      have hpair : (e.isolatedMargin && !e.hasSymbol) = false := by
        cases hmargin : e.isolatedMargin with
        | false => rfl
        | true =>
            obtain ⟨pair, hnames⟩ := h.pairs e (by simp) hmargin
            simp [e.hasSymbol_iff.2 ⟨pair, hnames⟩]
      have hmore : before ++ e :: entries = (before ++ [e]) ++ entries := by simp
      rw [hmore] at h ⊢
      rw [List.cons_append, check, ← ih _ h]
      simp [hpair, hnew]

theorem check_of_offends {before : List SessionEntry} {e : SessionEntry} {cause : ConfigError}
    (h : Offends before e cause) (after : List SessionEntry) :
    check (before.map SessionEntry.name).reverse (e :: after) = .error cause := by
  rw [check]
  cases h with
  | name htaken => simp [List.mem_map.1 htaken]
  | pair hfree hmargin hnone =>
      have hsymbol : e.hasSymbol = false := by
        rw [← Bool.not_eq_true, e.hasSymbol_iff]
        rintro ⟨pair, hnames⟩
        exact hnone pair hnames
      have hname : (before.map SessionEntry.name).reverse.contains e.name = false := by
        simpa using hfree
      rw [hname, hmargin, hsymbol]
      rfl

theorem check_of_sound {entries : List SessionEntry} (h : Sound entries) :
    check [] entries = .ok () := by
  have hall := check_append [] h []
  rwa [List.append_nil] at hall

theorem check_of_firstOffence {entries : List SessionEntry} {cause : ConfigError}
    (h : FirstOffence entries cause) : check [] entries = .error cause := by
  obtain ⟨before, e, after, rfl, hbefore, he⟩ := h
  have hall := check_append [] hbefore (e :: after)
  rw [List.nil_append, check_of_offends he] at hall
  exact hall

theorem check_eq_ok_iff (entries : List SessionEntry) :
    check [] entries = .ok () ↔ Sound entries := by
  constructor
  · intro hok
    rcases sound_or_firstOffence entries with hsound | ⟨cause, hoffence⟩
    · exact hsound
    · rw [check_of_firstOffence hoffence] at hok
      cases hok
  · exact check_of_sound

theorem check_eq_error_iff (entries : List SessionEntry) (cause : ConfigError) :
    check [] entries = .error cause ↔ FirstOffence entries cause := by
  constructor
  · intro herror
    rcases sound_or_firstOffence entries with hsound | ⟨found, hoffence⟩
    · rw [check_of_sound hsound] at herror
      cases herror
    · rw [check_of_firstOffence hoffence] at herror
      rwa [← Except.error.inj herror]
  · exact check_of_firstOffence

end UserConfig

/-! ## The sessions of accepted entries -/

namespace SessionEntry

/-- A session that an entry asks for. -/
structure Describes (e : SessionEntry) (session : Session) : Prop where
  name : session.name = e.name
  held : e.isolatedMargin = true →
    ∃ pair, e.NamesPair pair ∧ ∀ requested, session.effectiveSymbol requested = pair
  free : e.isolatedMargin = false → ∀ requested, session.effectiveSymbol requested = requested

theorem session_name (e : SessionEntry) : e.session.name = e.name := by
  unfold session
  split <;> rfl

/-- An entry that lacks no pair describes its session. -/
theorem describes_session {e : SessionEntry}
    (h : e.isolatedMargin = true → ∃ pair, e.NamesPair pair) : e.Describes e.session where
  name := e.session_name
  held := by
    intro hmargin
    obtain ⟨pair, hpair, hpresent⟩ := h hmargin
    refine ⟨pair, ⟨hpair, hpresent⟩, fun requested => ?_⟩
    simp only [session, hmargin, hpair]
    rfl
  free := by
    intro hmargin requested
    simp only [session, hmargin]
    rfl

theorem account_of_credentials {e : SessionEntry} {env : String → Option String}
    {credentials : Option Credentials} (h : e.credentials env = .ok credentials) :
    ∃ config, e.account env = .ok config := by
  unfold account
  rw [h]
  cases credentials <;> exact ⟨_, rfl⟩

end SessionEntry

namespace UserConfig

theorem mapM_ok_of_forall {ε α β : Type} {f : α → Except ε β} {R : α → β → Prop} {items : List α}
    (h : ∀ a ∈ items, ∃ b, f a = .ok b ∧ R a b) :
    ∃ results, items.mapM f = .ok results ∧ List.Forall₂ R items results := by
  induction items with
  | nil => exact ⟨[], rfl, .nil⟩
  | cons a items ih =>
      obtain ⟨b, hb, hab⟩ := h a List.mem_cons_self
      obtain ⟨results, hresults, hall⟩ := ih fun x hx => h x (List.mem_cons_of_mem a hx)
      refine ⟨b :: results, ?_, .cons hab hall⟩
      rw [List.mapM_cons, hb, hresults]
      rfl

/-- Every entry whose credentials can be found becomes its session, in the order of the entries. -/
theorem accounts_of_credentials {c : UserConfig} {env : String → Option String}
    (h : ∀ e ∈ c.sessions, ∃ credentials, e.credentials env = .ok credentials) :
    ∃ accounts, c.accounts env = .ok accounts ∧
      List.Forall₂ (fun e account => account.1 = e.session ∧ e.account env = .ok account.2)
        c.sessions accounts := by
  refine mapM_ok_of_forall fun e he => ?_
  obtain ⟨credentials, hcredentials⟩ := h e he
  obtain ⟨config, hconfig⟩ := SessionEntry.account_of_credentials hcredentials
  refine ⟨(e.session, config), ?_, rfl, hconfig⟩
  rw [hconfig]
  rfl

/-- A name belongs to one and the same place among entries and among sessions, or to none. -/
inductive SamePlace (c : UserConfig) (sessions : List Session) (name : String) : Prop
  | nowhere (hfree : ∀ e ∈ c.sessions, e.name ≠ name) (hentry : c.session? name = none)
      (hsession : Run.targetFirst name sessions = none)
  | found (position : Nat) {e : SessionEntry} {session : Session} {flagged : List (Bool × Session)}
      (hentry : c.session? name = some e) (hplace : c.sessions[position]? = some e)
      (honly : ∀ other x, c.sessions[other]? = some x → x.name = name → other = position)
      (hsession : Run.targetFirst name sessions = some flagged)
      (hmarked : Run.marked 0 flagged = [(session, position)])

theorem eq_place_of_name {c : UserConfig} (h : Sound c.sessions) {i j : Nat} {e x : SessionEntry}
    (hi : c.sessions[i]? = some e) (hj : c.sessions[j]? = some x) (hname : x.name = e.name) :
    j = i := by
  obtain ⟨hlt, -⟩ := List.getElem?_eq_some_iff.1 hj
  refine (List.getElem?_inj (by rwa [List.length_map]) h.names).1 ?_
  rw [List.getElem?_map, List.getElem?_map, hi, hj, Option.map_some, Option.map_some, hname]

/-- Entries that are told apart by their names are found where their sessions are. -/
theorem lookup_together {c : UserConfig} (h : Sound c.sessions) (name : String) :
    SamePlace c (c.sessions.map SessionEntry.session) name := by
  have hmarked := Run.marked_first name (c.sessions.map SessionEntry.session) 0
  cases hentry : c.session? name with
  | none =>
      have hfree : ∀ e ∈ c.sessions, e.name ≠ name := by
        intro e he
        simpa using List.find?_eq_none.1 hentry e he
      refine .nowhere hfree hentry ?_
      have hnone : ((c.sessions.map SessionEntry.session).zipIdx.find?
          fun target => target.1.name = name) = none := by
        rw [List.find?_eq_none]
        rintro ⟨session, position⟩ htarget
        obtain ⟨e, he, rfl⟩ := List.mem_map.1 (List.fst_mem_of_mem_zipIdx htarget)
        simpa [e.session_name] using hfree e he
      rw [hnone] at hmarked
      exact Option.map_eq_none_iff.1 hmarked
  | some e =>
      obtain ⟨hname, i, hi, hget, hbefore⟩ := List.find?_eq_some_iff_getElem.1 hentry
      have hfound : ((c.sessions.map SessionEntry.session).zipIdx.find?
          fun target => target.1.name = name) = some (e.session, i) := by
        refine List.find?_eq_some_iff_getElem.2 ⟨?_, i, by simpa using hi, by simp [hget], ?_⟩
        · simpa [e.session_name] using hname
        · intro j hj
          simpa [SessionEntry.session_name] using hbefore j hj
      rw [hfound, Option.map_some, Option.map_eq_some_iff] at hmarked
      obtain ⟨flagged, hflagged, hone⟩ := hmarked
      have hplace : c.sessions[i]? = some e := List.getElem?_eq_some_iff.2 ⟨hi, hget⟩
      refine .found i hentry hplace (fun other x hother hx => ?_) hflagged hone
      exact eq_place_of_name h hplace hother (hx.trans (of_decide_eq_true hname).symm)

/-- Entries are accepted just if they are told apart by their names and each isolated margin entry
names a pair, and else the first one that falls short is told. Accepted entries whose credentials
can be found become their sessions, one by one. A name belongs to the same place on both sides, and
a session is held to the pair of its entry if that is of an isolated margin account, and else
free. -/
theorem settings_become_sessions (c : UserConfig) (env : String → Option String) :
    (check [] c.sessions = .ok () ↔ Sound c.sessions) ∧
    (∀ cause, check [] c.sessions = .error cause ↔ FirstOffence c.sessions cause) ∧
    (check [] c.sessions = .ok () →
      (∀ e ∈ c.sessions, ∃ credentials, e.credentials env = .ok credentials) →
      ∃ accounts, c.accounts env = .ok accounts ∧
        List.Forall₂ (fun e account => e.Describes account.1 ∧ e.account env = .ok account.2)
          c.sessions accounts ∧
        ∀ name, SamePlace c (accounts.map Prod.fst) name) := by
  refine ⟨check_eq_ok_iff _, check_eq_error_iff _, fun haccepted hcredentials => ?_⟩
  have hsound := (check_eq_ok_iff _).1 haccepted
  obtain ⟨accounts, haccounts, hall⟩ := accounts_of_credentials hcredentials
  refine ⟨accounts, haccounts, ?_, fun name => ?_⟩
  · refine (List.forall₂_and_left _ _).2 ⟨hsound.pairs, hall⟩ |>.imp ?_
    rintro e account ⟨hpair, hsession, hconfig⟩
    rw [hsession]
    exact ⟨SessionEntry.describes_session hpair, hconfig⟩
  · have hsessions : accounts.map Prod.fst = c.sessions.map SessionEntry.session := by
      rw [← List.forall₂_eq_eq_eq, List.forall₂_map_left_iff, List.forall₂_map_right_iff]
      exact (hall.imp fun _ _ h => h.1).flip
    rw [hsessions]
    exact lookup_together hsound name

/-- Settings of an ordinary account, whose credentials are in the environment, and of an isolated
margin account without any. -/
def spotAndMargin : UserConfig where
  databaseUrl := none
  sessions :=
    [⟨"spot", .ftx, none, none, some "KEY", some "SECRET", none, none, none, false, none, false⟩,
      ⟨"margin", .ftx, none, none, none, none, some "margin", none, none, true, some "BTC/USD",
        true⟩]

def twoVariables (name : String) : Option String :=
  [("KEY", "k"), ("SECRET", "s")].lookup name

/-- The second session is found under its name, and is held to its pair whatever is asked for. -/
theorem settings_become_sessions_margin :
    check [] spotAndMargin.sessions = .ok () ∧
    (∀ e ∈ spotAndMargin.sessions, ∃ credentials, e.credentials twoVariables = .ok credentials) ∧
    ∃ spot margin flagged session,
      spotAndMargin.accounts twoVariables = .ok [spot, margin] ∧
      margin.1.effectiveSymbol "ETH/USD" = "BTC/USD" ∧
      Run.targetFirst "margin" [spot.1, margin.1] = some flagged ∧
      Run.marked 0 flagged = [(session, 1)] := by
  have haccepted : check [] spotAndMargin.sessions = .ok () := by decide
  have hcredentials : ∀ e ∈ spotAndMargin.sessions,
      ∃ credentials, e.credentials twoVariables = .ok credentials := by
    intro e he
    simp only [spotAndMargin, List.mem_cons, List.not_mem_nil, or_false] at he
    rcases he with rfl | rfl
    · exact ⟨some ⟨"k", "s"⟩, by decide⟩
    · exact ⟨none, by decide⟩
  obtain ⟨-, -, hsessions⟩ := settings_become_sessions spotAndMargin twoVariables
  obtain ⟨accounts, haccounts, hall, hplaces⟩ := hsessions haccepted hcredentials
  obtain _ | @⟨_, spot, _, _, -, _ | @⟨_, margin, _, _, hmargin, ⟨⟩⟩⟩ := hall
  obtain ⟨pair, ⟨hpair, -⟩, hheld⟩ := hmargin.1.held rfl
  obtain rfl : "BTC/USD" = pair := Option.some.inj hpair
  cases hplaces "margin" with
  | nowhere hfree => exact absurd rfl (hfree _ (List.mem_cons_of_mem _ List.mem_cons_self))
  | @found position e session flagged hentry hplace honly hsession hmarked =>
      obtain rfl : 1 = position := honly 1 _ rfl rfl
      exact ⟨haccepted, hcredentials, spot, margin, flagged, session, haccounts, hheld "ETH/USD",
        hsession, hmarked⟩

end UserConfig

end Tradebook
