import Mathlib
import Tradebook.Proofs.DiscoveredSymbols
import Tradebook.Run

/-!
# A run goes along a plan

What a run will ask for is known in advance but for one thing: which symbols a
session trades turns out when the session is asked. Once they are given there is a
`plan`, a list of calls, and a run makes these calls in this order until one
fails or the signal to stop is seen where it is looked for. That is `Goes`. The symbols
of the plan are no others than those that follow from what the sessions answered
(`Answered`).

There is one more way for a run to end, and it is in no plan. Where a sum of balances is
out of range the run breaks off between two calls, although all that it asked for was
answered and nobody told it to stop (`Breaks`). It then ends neither well nor with an error.
The lemmas up to `syncSessions_follows` show of each part of a run, from one call to all
sessions, that it goes along its calls or breaks off (`Follows`).

`Goes.spec` and `Breaks.spec` read off what follows: the calls that were made are a beginning
of the plan, and a run that did not break off ended in one of three ways (`Ended`). The
accounts write down their calls for this (`Accounts.recorded`), so a call too many would be
seen. Whether a run breaks off depends on the answers alone (`SumsInRange`), and so
`run_follows_plan` is about every run.
-/

namespace Tradebook

/-- A call that a run makes; `position` is that of the session. -/
inductive RunCall where
  | balances (position : Nat)
  | markets (position : Nat)
  | sync (kind : RecordKind) (position : Nat) (symbol : String) (start : Timestamp)
  deriving DecidableEq, Repr

namespace RunCall

def position : RunCall → Nat
  | balances position => position
  | markets position => position
  | sync _ position _ _ => position

/-- Whether the signal to stop is looked for before the call: when a session is asked, and
before each symbol. -/
def opens : RunCall → Bool
  | balances _ => true
  | markets _ => false
  | sync .trades _ _ _ => true
  | sync .orders _ _ _ => false

/-- The call, with a failure told as that of a run over a session of the name. -/
def perform {σ : Type} (accounts : Accounts σ) (name : String) :
    RunCall → σ → Outcome RunError Unit × σ
  | balances position, s =>
    let answer := accounts.balances position s
    ((answer.1.mapError (.init name)).bind fun _ => .ok (), answer.2)
  | markets position, s =>
    let answer := accounts.markets position s
    ((answer.1.mapError (.init name)).bind fun _ => .ok (), answer.2)
  | sync kind position symbol start, s =>
    let answer := accounts.sync kind position symbol start s
    (answer.1.mapError (.sync name symbol kind), answer.2)

end RunCall

/-- A call with the world in which it was made. -/
structure MadeCall (σ : Type) where
  world : σ
  call : RunCall

/-- What came of the call, in a run over sessions with these names. -/
def MadeCall.outcome {σ : Type} (accounts : Accounts σ) (name : Nat → String)
    (made : MadeCall σ) : Outcome RunError Unit × σ :=
  made.call.perform accounts (name made.call.position) made.world

/-- The same accounts, writing down the calls. -/
def Accounts.recorded {σ : Type} (accounts : Accounts σ) :
    Accounts (σ × List (MadeCall σ)) where
  stopped s := accounts.stopped s.1
  balances position s :=
    let answer := accounts.balances position s.1
    (answer.1, answer.2, s.2 ++ [⟨s.1, .balances position⟩])
  markets position s :=
    let answer := accounts.markets position s.1
    (answer.1, answer.2, s.2 ++ [⟨s.1, .markets position⟩])
  sync kind position symbol start s :=
    let answer := accounts.sync kind position symbol start s.1
    (answer.1, answer.2, s.2 ++ [⟨s.1, .sync kind position symbol start⟩])

namespace Run

variable {σ : Type}

/-- Going along some calls: each in turn, until one does not end well or the signal to stop is
seen before one at which it is looked for. -/
inductive Goes (accounts : Accounts σ) (name : Nat → String) :
    List RunCall → σ → List (MadeCall σ) → Outcome RunError Unit → σ → Prop
  | done {s : σ} : Goes accounts name [] s [] (.ok ()) s
  | halted {call : RunCall} {rest : List RunCall} {s : σ} (hopens : call.opens = true)
      (hstopped : accounts.stopped s = true) :
      Goes accounts name (call :: rest) s [] (.error .cancelled) s
  | failed {call : RunCall} {rest : List RunCall} {result : Outcome RunError Unit} {s s' : σ}
      (hgo : call.opens = true → accounts.stopped s = false)
      (hcall : MadeCall.outcome accounts name ⟨s, call⟩ = (result, s'))
      (hbad : result ≠ .ok ()) :
      Goes accounts name (call :: rest) s [⟨s, call⟩] result s'
  | next {call : RunCall} {rest : List RunCall} {made : List (MadeCall σ)}
      {result : Outcome RunError Unit} {s s' s'' : σ}
      (hgo : call.opens = true → accounts.stopped s = false)
      (hcall : MadeCall.outcome accounts name ⟨s, call⟩ = (.ok (), s'))
      (hrest : Goes accounts name rest s' made result s'') :
      Goes accounts name (call :: rest) s (⟨s, call⟩ :: made) result s''

/-- How a run ended that made some calls of its plan and left the rest. -/
inductive Ended (accounts : Accounts σ) (name : Nat → String) (made : List (MadeCall σ))
    (rest : List RunCall) : Outcome RunError Unit → σ → Prop
  | whole {s' : σ} (hrest : rest = []) (hall : ∀ m ∈ made, (m.outcome accounts name).1 = .ok ()) :
      Ended accounts name made rest (.ok ()) s'
  | failed {before : List (MadeCall σ)} {last : MadeCall σ} {result : Outcome RunError Unit}
      {s' : σ} (hmade : made = before ++ [last])
      (hall : ∀ m ∈ before, (m.outcome accounts name).1 = .ok ())
      (hlast : last.outcome accounts name = (result, s')) (hbad : result ≠ .ok ()) :
      Ended accounts name made rest result s'
  | stopped {call : RunCall} {after : List RunCall} {s' : σ} (hrest : rest = call :: after)
      (hopens : call.opens = true) (hstopped : accounts.stopped s' = true)
      (hall : ∀ m ∈ made, (m.outcome accounts name).1 = .ok ()) :
      Ended accounts name made rest (.error .cancelled) s'

section Going

variable {accounts : Accounts σ} {name : Nat → String} {calls more rest : List RunCall}
  {made made' : List (MadeCall σ)} {first : MadeCall σ} {result : Outcome RunError Unit}
  {s s' s'' : σ}

theorem Goes.append (h : Goes accounts name calls s made (.ok ()) s')
    (h' : Goes accounts name more s' made' result s'') :
    Goes accounts name (calls ++ more) s (made ++ made') result s'' := by
  generalize hok : (Outcome.ok () : Outcome RunError Unit) = ended at h
  induction h with
  | done => exact h'
  | halted => cases hok
  | failed _ _ hbad => exact absurd hok.symm hbad
  | next hgo hcall _ ih => exact .next hgo hcall (ih h' hok)

/-- What was not done well has no further calls. -/
theorem Goes.stay (h : Goes accounts name calls s made result s') (hbad : result ≠ .ok ()) :
    Goes accounts name (calls ++ more) s made result s' := by
  induction h with
  | done => exact absurd rfl hbad
  | halted hopens hstopped => exact .halted hopens hstopped
  | failed hgo hcall hbad => exact .failed hgo hcall hbad
  | next hgo hcall _ ih => exact .next hgo hcall (ih hbad)

theorem goes_call (accounts : Accounts σ) (name : Nat → String) (call : RunCall) (s : σ)
    (hgo : call.opens = true → accounts.stopped s = false) :
    Goes accounts name [call] s [⟨s, call⟩] (MadeCall.outcome accounts name ⟨s, call⟩).1
      (MadeCall.outcome accounts name ⟨s, call⟩).2 := by
  rcases hcall : MadeCall.outcome accounts name ⟨s, call⟩ with ⟨ended, s'⟩
  by_cases hok : ended = .ok ()
  · subst hok
    exact .next hgo hcall .done
  · exact .failed hgo hcall hok

theorem Ended.cons (hfirst : (first.outcome accounts name).1 = .ok ())
    (h : Ended accounts name made rest result s') :
    Ended accounts name (first :: made) rest result s' := by
  cases h with
  | whole hrest hall => exact .whole hrest (List.forall_mem_cons.2 ⟨hfirst, hall⟩)
  | @failed before last _ _ hmade hall hlast hbad =>
      have hmade' : first :: made = (first :: before) ++ [last] := by rw [hmade]; rfl
      exact .failed hmade' (List.forall_mem_cons.2 ⟨hfirst, hall⟩) hlast hbad
  | stopped hrest hopens hstopped hall =>
      exact .stopped hrest hopens hstopped (List.forall_mem_cons.2 ⟨hfirst, hall⟩)

/-- The calls that were made are a beginning of the plan. -/
theorem Goes.spec (h : Goes accounts name calls s made result s') :
    ∃ rest, calls = made.map MadeCall.call ++ rest ∧
      (∀ m ∈ made, m.call.opens = true → accounts.stopped m.world = false) ∧
      Ended accounts name made rest result s' := by
  induction h with
  | done => exact ⟨[], rfl, by simp, .whole rfl (by simp)⟩
  | @halted call rest s hopens hstopped =>
      exact ⟨call :: rest, rfl, by simp, .stopped rfl hopens hstopped (by simp)⟩
  | @failed call rest result s s' hgo hcall hbad =>
      refine ⟨rest, rfl, ?_, .failed (List.nil_append _).symm (by simp) hcall hbad⟩
      intro m hm
      rw [List.mem_singleton.1 hm]
      exact hgo
  | @next call rest made result s s' s'' hgo hcall _ ih =>
      obtain ⟨left, hcalls, hunstopped, hended⟩ := ih
      refine ⟨left, by rw [hcalls]; rfl, List.forall_mem_cons.2 ⟨hgo, hunstopped⟩,
        hended.cons (by rw [hcall])⟩

theorem Goes.mem_calls (h : Goes accounts name calls s made result s') {m : MadeCall σ}
    (hm : m ∈ made) : m.call ∈ calls := by
  obtain ⟨rest, hcalls, -, -⟩ := h.spec
  rw [hcalls]
  exact List.mem_append_left _ (List.mem_map_of_mem hm)

theorem Ended.ok_iff (h : Ended accounts name made rest result s') :
    result = .ok () ↔ rest = [] ∧ ∀ m ∈ made, (m.outcome accounts name).1 = .ok () := by
  cases h with
  | whole hrest hall => exact iff_of_true rfl ⟨hrest, hall⟩
  | @failed before last _ _ hmade _ hlast hbad =>
      refine iff_of_false hbad fun h => hbad ?_
      have hok := h.2 last (by rw [hmade]; simp)
      rwa [hlast] at hok
  | stopped hrest =>
      refine iff_of_false (by simp) fun h => ?_
      rw [hrest] at h
      exact absurd h.1 (by simp)

/-- Calls that all ended well are all that there were to make. -/
theorem Goes.calls_eq (h : Goes accounts name calls s made (.ok ()) s') :
    made.map MadeCall.call = calls := by
  obtain ⟨rest, hcalls, -, hended⟩ := h.spec
  obtain ⟨hrest, -⟩ := hended.ok_iff.1 rfl
  rw [hcalls, hrest, List.append_nil]

end Going

/-! ## The symbols of a session -/

/-- The two copies of a symbol: fills, then orders. -/
def pairCalls (position : Nat) (session : Session) (start : Timestamp) (symbol : String) :
    List RunCall :=
  [.sync .trades position (session.effectiveSymbol symbol) start,
    .sync .orders position (session.effectiveSymbol symbol) start]

section Symbols

variable (accounts : Accounts σ) {name : Nat → String} {position : Nat} {session : Session}

theorem syncKind_goes (hname : name position = session.name) (symbol : String)
    (start : Timestamp) (kind : RecordKind) (s : σ)
    (hgo : kind = .trades → accounts.stopped s = false) :
    Goes accounts name [.sync kind position symbol start] s
      [⟨s, .sync kind position symbol start⟩]
      (syncKind accounts position session symbol start kind s).1
      (syncKind accounts position session symbol start kind s).2 := by
  have houtcome : syncKind accounts position session symbol start kind s =
      MadeCall.outcome accounts name ⟨s, .sync kind position symbol start⟩ := by
    show _ = RunCall.perform accounts (name position) _ s
    rw [hname]
    rfl
  rw [houtcome]
  refine goes_call accounts name _ s fun hopens => hgo ?_
  cases kind with
  | trades => rfl
  | orders => cases hopens

theorem syncKind_recorded (symbol : String) (start : Timestamp) (kind : RecordKind) (s : σ)
    (log : List (MadeCall σ)) :
    syncKind accounts.recorded position session symbol start kind (s, log) =
      ((syncKind accounts position session symbol start kind s).1,
        (syncKind accounts position session symbol start kind s).2,
        log ++ [⟨s, .sync kind position symbol start⟩]) :=
  rfl

theorem syncSymbol_goes (hname : name position = session.name) (start : Timestamp)
    (requested : String) (s : σ) (log : List (MadeCall σ)) :
    ∃ result s' made,
      syncSymbol accounts position session start requested s = (result, s') ∧
      syncSymbol accounts.recorded position session start requested (s, log) =
        (result, s', log ++ made) ∧
      Goes accounts name (pairCalls position session start requested) s made result s' := by
  by_cases hstopped : accounts.stopped s = true
  · have hstopped' : accounts.recorded.stopped (s, log) = true := hstopped
    refine ⟨.error .cancelled, s, [], ?_, ?_, .halted rfl hstopped⟩
    · rw [syncSymbol, if_pos hstopped]
    · rw [syncSymbol, if_pos hstopped', List.append_nil]
  · have hstopped' : ¬ accounts.recorded.stopped (s, log) = true := hstopped
    have hfills := syncKind_goes accounts hname (session.effectiveSymbol requested) start .trades s
      fun _ => by simpa using hstopped
    rw [syncSymbol, syncSymbol, if_neg hstopped, if_neg hstopped']
    dsimp only
    rw [syncKind_recorded]
    rcases hanswer : syncKind accounts position session (session.effectiveSymbol requested) start
      .trades s with ⟨ended, s₁⟩
    rw [hanswer] at hfills
    cases ended with
    | ok value =>
        have horders := syncKind_goes accounts hname (session.effectiveSymbol requested) start
          .orders s₁ (by simp)
        refine ⟨_, _, _, rfl, ?_, hfills.append horders⟩
        show syncKind accounts.recorded position session _ start .orders (s₁, log ++ [_]) = _
        rw [syncKind_recorded, List.append_assoc]
        rfl
    | error cause => exact ⟨_, _, _, rfl, rfl, hfills.stay (by simp)⟩
    | overflow => exact ⟨_, _, _, rfl, rfl, hfills.stay (by simp)⟩
    | exhausted => exact ⟨_, _, _, rfl, rfl, hfills.stay (by simp)⟩

theorem syncSymbols_goes (hname : name position = session.name) (start : Timestamp)
    (symbols : List String) (s : σ) (log : List (MadeCall σ)) :
    ∃ result s' made,
      syncSymbols accounts position session start symbols s = (result, s') ∧
      syncSymbols accounts.recorded position session start symbols (s, log) =
        (result, s', log ++ made) ∧
      Goes accounts name (symbols.flatMap (pairCalls position session start)) s made result
        s' := by
  induction symbols generalizing s log with
  | nil => exact ⟨.ok (), s, [], rfl, by rw [syncSymbols, List.append_nil], .done⟩
  | cons symbol symbols ih =>
      obtain ⟨result, s₁, made, hplain, hrecorded, hgoes⟩ :=
        syncSymbol_goes accounts hname start symbol s log
      rw [syncSymbols, syncSymbols, hplain, hrecorded, List.flatMap_cons]
      cases result with
      | ok value =>
          obtain ⟨result, s₂, made', hplain', hrecorded', hgoes'⟩ := ih s₁ (log ++ made)
          refine ⟨result, s₂, made ++ made', hplain', ?_, hgoes.append hgoes'⟩
          rw [← List.append_assoc]
          exact hrecorded'
      | error cause => exact ⟨_, _, _, rfl, rfl, hgoes.stay (by simp)⟩
      | overflow => exact ⟨_, _, _, rfl, rfl, hgoes.stay (by simp)⟩
      | exhausted => exact ⟨_, _, _, rfl, rfl, hgoes.stay (by simp)⟩

end Symbols

/-! ## What a session trades -/

/-- The two answers of the session at a position, where it was asked and gave both. -/
structure Told (accounts : Accounts σ) (made : List (MadeCall σ)) (position : Nat)
    (balances : Balances) (markets : List Market) : Prop where
  balances : ∃ w, ⟨w, .balances position⟩ ∈ made ∧ (accounts.balances position w).1 = .ok balances
  markets : ∃ w, ⟨w, .markets position⟩ ∈ made ∧ (accounts.markets position w).1 = .ok markets

/-- The symbols `found` are those that come out of the answers the sessions gave. -/
def Answered (accounts : Accounts σ) (found : Nat → List String) (made : List (MadeCall σ)) :
    Prop :=
  ∀ position balances markets, Told accounts made position balances markets →
    Discovery.symbols? balances markets = some (found position)

/-- The sums that the answers of the sessions call for can all be written down. -/
def SumsInRange (accounts : Accounts σ) (made : List (MadeCall σ)) : Prop :=
  ∀ position balances markets, Told accounts made position balances markets →
    ∀ c, Discovery.Consulted balances markets c → Discovery.InRange balances c

section Answers

variable {accounts : Accounts σ} {found : Nat → List String} {made : List (MadeCall σ)}

theorem Answered.sumsInRange (h : Answered accounts found made) : SumsInRange accounts made :=
  fun position balances markets htold =>
    Discovery.inRange_of_symbols (h position balances markets htold)

/-- Where no session was asked for its markets, any symbols will do. -/
theorem answered_of_unlisted (h : ∀ m ∈ made, ∀ p, m.call ≠ .markets p)
    (found : Nat → List String) : Answered accounts found made := by
  rintro position balances markets ⟨-, w, hmem, -⟩
  exact absurd rfl (h _ hmem position)

theorem Answered.congr {found' : Nat → List String} (h : Answered accounts found made)
    (hsame : ∀ m ∈ made, found' m.call.position = found m.call.position) :
    Answered accounts found' made := by
  intro position balances markets htold
  obtain ⟨w, hmem, -⟩ := htold.balances
  have hposition : found' position = found position := hsame _ hmem
  rw [hposition]
  exact h position balances markets htold

theorem Answered.append {made' : List (MadeCall σ)} (h : Answered accounts found made)
    (h' : Answered accounts found made')
    (hapart : ∀ m ∈ made, ∀ m' ∈ made', m.call.position ≠ m'.call.position) :
    Answered accounts found (made ++ made') := by
  -- the positions keep the answers of one session apart from those of the others
  rintro position balances markets ⟨⟨w, hmem, hbalances⟩, ⟨w', hmem', hmarkets⟩⟩
  rcases List.mem_append.1 hmem with hmem | hmem <;>
    rcases List.mem_append.1 hmem' with hmem' | hmem'
  · exact h position balances markets ⟨⟨w, hmem, hbalances⟩, ⟨w', hmem', hmarkets⟩⟩
  · exact absurd (rfl : position = position) (hapart _ hmem _ hmem')
  · exact absurd (rfl : position = position) (hapart _ hmem' _ hmem)
  · exact h' position balances markets ⟨⟨w, hmem, hbalances⟩, ⟨w', hmem', hmarkets⟩⟩

end Answers

/-! ## Breaking off -/

/-- Breaking off: some calls were gone along to their end, and then a session was asked whose
answers call for a sum that is out of range. -/
inductive Breaks (accounts : Accounts σ) (name : Nat → String) (found : Nat → List String)
    (calls : List RunCall) (s : σ) (made : List (MadeCall σ)) (s' : σ) : Prop
  | intro {done rest : List RunCall} {before : List (MadeCall σ)} {position : Nat}
      {balances : Balances} {markets : List Market} {w w' : σ}
      (hcalls : calls = done ++ .balances position :: .markets position :: rest)
      (hmade : made = before ++ [⟨w, .balances position⟩, ⟨w', .markets position⟩])
      (hbefore : Goes accounts name done s before (.ok ()) w)
      (hanswered : Answered accounts found before) (hgo : accounts.stopped w = false)
      (hbalances : accounts.balances position w = (.ok balances, w'))
      (hmarkets : accounts.markets position w' = (.ok markets, s'))
      (hsum : Discovery.symbols? balances markets = none)

/-- How a run ended that broke off: the session it asked last gave both answers, and one of the
sums they call for is out of range. Those of the sessions before were not. -/
inductive BrokeOff (accounts : Accounts σ) (name : Nat → String) (found : Nat → List String)
    (made : List (MadeCall σ)) (s' : σ) : Prop
  | intro {before : List (MadeCall σ)} {position : Nat} {balances : Balances}
      {markets : List Market} {w w' : σ} {c : String}
      (hmade : made = before ++ [⟨w, .balances position⟩, ⟨w', .markets position⟩])
      (hall : ∀ m ∈ made, (m.outcome accounts name).1 = .ok ())
      (hanswered : Answered accounts found before)
      (hbalances : accounts.balances position w = (.ok balances, w'))
      (hmarkets : accounts.markets position w' = (.ok markets, s'))
      (hconsulted : Discovery.Consulted balances markets c)
      (hsum : ¬ Discovery.InRange balances c)

/-- A run, as far as some calls go, goes along them or breaks off. -/
def Follows (accounts : Accounts σ) (name : Nat → String) (found : Nat → List String)
    (calls : List RunCall) (s : σ) (made : List (MadeCall σ)) (result : Outcome RunError Unit)
    (s' : σ) : Prop :=
  (Answered accounts found made ∧ Goes accounts name calls s made result s') ∨
    (result = .overflow ∧ Breaks accounts name found calls s made s')

section Breaking

variable {accounts : Accounts σ} {name : Nat → String} {found found' : Nat → List String}
  {calls more : List RunCall} {made made' : List (MadeCall σ)} {result : Outcome RunError Unit}
  {s s' s'' : σ}

theorem outcome_balances {position : Nat} {balances : Balances}
    (h : accounts.balances position s = (.ok balances, s')) :
    MadeCall.outcome accounts name ⟨s, .balances position⟩ = (.ok (), s') := by
  simp [MadeCall.outcome, RunCall.perform, h, Outcome.mapError, Outcome.bind]

theorem outcome_markets {position : Nat} {markets : List Market}
    (h : accounts.markets position s = (.ok markets, s')) :
    MadeCall.outcome accounts name ⟨s, .markets position⟩ = (.ok (), s') := by
  simp [MadeCall.outcome, RunCall.perform, h, Outcome.mapError, Outcome.bind]

theorem BrokeOff.not_sumsInRange (h : BrokeOff accounts name found made s') :
    ¬ SumsInRange accounts made := by
  obtain @⟨before, position, balances, markets, w, w', c, hmade, -, -, hbalances, hmarkets,
    hconsulted, hsum⟩ := h
  have htold : Told accounts made position balances markets := by
    rw [hmade]
    exact ⟨⟨w, by simp, by rw [hbalances]⟩, ⟨w', by simp, by rw [hmarkets]⟩⟩
  exact fun hrange => hsum (hrange position balances markets htold c hconsulted)

theorem Breaks.spec (h : Breaks accounts name found calls s made s') :
    ∃ rest, calls = made.map MadeCall.call ++ rest ∧
      (∀ m ∈ made, m.call.opens = true → accounts.stopped m.world = false) ∧
      BrokeOff accounts name found made s' := by
  obtain @⟨done, rest, before, position, balances, markets, w, w', hcalls, hmade, hbefore,
    hanswered, hgo, hbalances, hmarkets, hsum⟩ := h
  obtain ⟨_, -, hunstopped, hended⟩ := hbefore.spec
  obtain ⟨-, hall⟩ := hended.ok_iff.1 rfl
  obtain ⟨c, hconsulted, hout⟩ := Discovery.symbols_eq_none_iff.1 hsum
  refine ⟨rest, ?_, ?_, .intro hmade ?_ hanswered hbalances hmarkets hconsulted hout⟩
  · rw [hcalls, hmade, ← hbefore.calls_eq]
    simp
  · rw [hmade]
    refine List.forall_mem_append.2 ⟨hunstopped, ?_⟩
    simp [RunCall.opens, hgo]
  · rw [hmade]
    refine List.forall_mem_append.2 ⟨hall, ?_⟩
    simp [outcome_balances hbalances, outcome_markets hmarkets]

theorem Breaks.congr (h : Breaks accounts name found calls s made s')
    (hsame : ∀ m ∈ made, found' m.call.position = found m.call.position) :
    Breaks accounts name found' calls s made s' := by
  obtain ⟨hcalls, hmade, hbefore, hanswered, hgo, hbalances, hmarkets, hsum⟩ := h
  refine .intro hcalls hmade hbefore (hanswered.congr fun m hm => hsame m ?_) hgo hbalances
    hmarkets hsum
  rw [hmade]
  exact List.mem_append_left _ hm

theorem Breaks.stay (h : Breaks accounts name found calls s made s') :
    Breaks accounts name found (calls ++ more) s made s' := by
  obtain @⟨done, rest, before, position, _, _, _, _, hcalls, hmade, hbefore, hanswered, hgo,
    hbalances, hmarkets, hsum⟩ := h
  have hcalls' : calls ++ more =
      done ++ .balances position :: .markets position :: (rest ++ more) := by
    rw [hcalls, List.append_assoc]
    rfl
  exact .intro hcalls' hmade hbefore hanswered hgo hbalances hmarkets hsum

theorem Breaks.append (hgoes : Goes accounts name calls s made (.ok ()) s')
    (hanswered : Answered accounts found made)
    (h : Breaks accounts name found more s' made' s'')
    (hapart : ∀ m ∈ made, ∀ m' ∈ made', m.call.position ≠ m'.call.position) :
    Breaks accounts name found (calls ++ more) s (made ++ made') s'' := by
  obtain @⟨done, rest, before, position, _, _, w, w', hcalls, hmade, hbefore, hanswered', hgo,
    hbalances, hmarkets, hsum⟩ := h
  have hcalls' : calls ++ more =
      (calls ++ done) ++ .balances position :: .markets position :: rest := by
    rw [hcalls, List.append_assoc]
  have hmade' : made ++ made' =
      (made ++ before) ++ [⟨w, .balances position⟩, ⟨w', .markets position⟩] := by
    rw [hmade, List.append_assoc]
  have hapart' : ∀ m ∈ made, ∀ m' ∈ before, m.call.position ≠ m'.call.position :=
    fun m hm m' hm' => hapart m hm m' (hmade ▸ List.mem_append_left _ hm')
  exact .intro hcalls' hmade' (hgoes.append hbefore) (hanswered.append hanswered' hapart') hgo
    hbalances hmarkets hsum

theorem Follows.congr (h : Follows accounts name found calls s made result s')
    (hsame : ∀ m ∈ made, found' m.call.position = found m.call.position) :
    Follows accounts name found' calls s made result s' :=
  h.imp (fun ⟨hanswered, hgoes⟩ => ⟨hanswered.congr hsame, hgoes⟩)
    fun ⟨hresult, hbreaks⟩ => ⟨hresult, hbreaks.congr hsame⟩

theorem Follows.stay (h : Follows accounts name found calls s made result s')
    (hbad : result ≠ .ok ()) : Follows accounts name found (calls ++ more) s made result s' :=
  h.imp (fun ⟨hanswered, hgoes⟩ => ⟨hanswered, hgoes.stay hbad⟩)
    fun ⟨hresult, hbreaks⟩ => ⟨hresult, hbreaks.stay⟩

theorem Follows.append (h : Follows accounts name found calls s made (.ok ()) s')
    (h' : Follows accounts name found more s' made' result s'')
    (hapart : ∀ m ∈ made, ∀ m' ∈ made', m.call.position ≠ m'.call.position) :
    Follows accounts name found (calls ++ more) s (made ++ made') result s'' := by
  rcases h with ⟨hanswered, hgoes⟩ | ⟨hresult, -⟩
  · rcases h' with ⟨hanswered', hgoes'⟩ | ⟨hresult, hbreaks⟩
    · exact Or.inl ⟨hanswered.append hanswered' hapart, hgoes.append hgoes'⟩
    · exact Or.inr ⟨hresult, .append hgoes hanswered hbreaks hapart⟩
  · cases hresult

theorem Follows.mem_calls (h : Follows accounts name found calls s made result s')
    {m : MadeCall σ} (hm : m ∈ made) : m.call ∈ calls := by
  rcases h with ⟨-, hgoes⟩ | ⟨-, hbreaks⟩
  · exact hgoes.mem_calls hm
  · obtain ⟨rest, hcalls, -⟩ := hbreaks.spec
    rw [hcalls]
    exact List.mem_append_left _ (List.mem_map_of_mem hm)

end Breaking

/-! ## One session -/

section Sessions

variable (accounts : Accounts σ) {name : Nat → String} {position : Nat} {session : Session}

/-- The two questions to a session. Unless both were answered there is nothing to find symbols
in. -/
theorem init_goes (hname : name position = session.name) (s : σ) (log : List (MadeCall σ))
    (hgo : accounts.stopped s = false) :
    ∃ found s' made,
      init accounts position session s = (found, s') ∧
      init accounts.recorded position session (s, log) = (found, s', log ++ made) ∧
      ((∃ balances markets s₁, found = .ok { session with balances, markets } ∧
          made = [⟨s, .balances position⟩, ⟨s₁, .markets position⟩] ∧
          accounts.balances position s = (.ok balances, s₁) ∧
          accounts.markets position s₁ = (.ok markets, s')) ∨
        (((found.mapError (RunError.init session.name)).bind fun _ => .ok ()) ≠ .ok () ∧
          Goes accounts name [.balances position, .markets position] s made
            ((found.mapError (RunError.init session.name)).bind fun _ => .ok ()) s' ∧
          ∀ any, Answered accounts any made)) := by
  have hfirst := goes_call accounts name (.balances position) s fun _ => hgo
  simp only [MadeCall.outcome, RunCall.perform, RunCall.position, hname] at hfirst
  rcases hbalances : accounts.balances position s with ⟨answer, s₁⟩
  rw [hbalances] at hfirst
  have hnone : ∀ any, Answered accounts any [⟨s, .balances position⟩] :=
    answered_of_unlisted (by simp)
  cases answer with
  | ok balances =>
      have hsecond := goes_call accounts name (.markets position) s₁ nofun
      simp only [MadeCall.outcome, RunCall.perform, RunCall.position, hname] at hsecond
      rcases hmarkets : accounts.markets position s₁ with ⟨answer, s₂⟩
      rw [hmarkets] at hsecond
      have hboth := hfirst.append hsecond
      have hnone : (∀ markets, answer ≠ .ok markets) →
          ∀ any, Answered accounts any [⟨s, .balances position⟩, ⟨s₁, .markets position⟩] := by
        rintro hbad any position balances markets ⟨-, w, hmem, hanswer⟩
        simp at hmem
        obtain ⟨rfl, rfl⟩ := hmem
        rw [hmarkets] at hanswer
        exact absurd hanswer (hbad markets)
      simp only [init, Accounts.recorded, hbalances, hmarkets, List.append_assoc]
      cases answer with
      | ok markets =>
          exact ⟨_, _, _, rfl, rfl, Or.inl ⟨balances, markets, s₁, rfl, rfl, rfl, hmarkets⟩⟩
      | error cause =>
          exact ⟨_, _, _, rfl, rfl, Or.inr ⟨nofun, hboth, hnone nofun⟩⟩
      | overflow => exact ⟨_, _, _, rfl, rfl, Or.inr ⟨nofun, hboth, hnone nofun⟩⟩
      | exhausted => exact ⟨_, _, _, rfl, rfl, Or.inr ⟨nofun, hboth, hnone nofun⟩⟩
  | error cause =>
      simp only [init, Accounts.recorded, hbalances]
      exact ⟨_, _, _, rfl, rfl, Or.inr ⟨nofun, hfirst.stay nofun, hnone⟩⟩
  | overflow =>
      simp only [init, Accounts.recorded, hbalances]
      exact ⟨_, _, _, rfl, rfl, Or.inr ⟨nofun, hfirst.stay nofun, hnone⟩⟩
  | exhausted =>
      simp only [init, Accounts.recorded, hbalances]
      exact ⟨_, _, _, rfl, rfl, Or.inr ⟨nofun, hfirst.stay nofun, hnone⟩⟩

/-- What a session is asked in a run, `symbols` being those it turns out to trade. -/
def sessionCalls (request : RunRequest) (position : Nat) (session : Session)
    (symbols : List String) : List RunCall :=
  match request.symbol with
  | some symbol => pairCalls position session request.start symbol
  | none =>
    .balances position :: .markets position ::
      symbols.flatMap (pairCalls position session request.start)

theorem sessionCalls_position {request : RunRequest} {symbols : List String} {call : RunCall}
    (h : call ∈ sessionCalls request position session symbols) : call.position = position := by
  have hpair : ∀ symbol, call ∈ pairCalls position session request.start symbol →
      call.position = position := by
    intro symbol h
    simp only [pairCalls, List.mem_cons, List.not_mem_nil, or_false] at h
    rcases h with rfl | rfl <;> rfl
  rw [sessionCalls] at h
  split at h
  · exact hpair _ h
  · simp only [List.mem_cons, List.mem_flatMap] at h
    rcases h with rfl | rfl | ⟨symbol, -, h⟩
    · rfl
    · rfl
    · exact hpair symbol h

theorem Goes.asked {balances : Balances} {markets : List Market} {calls : List RunCall}
    {made : List (MadeCall σ)} {result : Outcome RunError Unit} {s s₁ s₂ s' : σ}
    (hgo : accounts.stopped s = false)
    (hbalances : accounts.balances position s = (.ok balances, s₁))
    (hmarkets : accounts.markets position s₁ = (.ok markets, s₂))
    (h : Goes accounts name calls s₂ made result s') :
    Goes accounts name (.balances position :: .markets position :: calls) s
      (⟨s, .balances position⟩ :: ⟨s₁, .markets position⟩ :: made) result s' := by
  exact .next (fun _ => hgo) (outcome_balances hbalances)
    (.next nofun (outcome_markets hmarkets) h)

/-- Copies ask for nothing. -/
theorem ne_of_mem_pairCalls {start : Timestamp} {symbols : List String} {call : RunCall}
    (h : call ∈ symbols.flatMap (pairCalls position session start)) (p : Nat) :
    call ≠ .balances p ∧ call ≠ .markets p := by
  obtain ⟨symbol, -, hcall⟩ := List.mem_flatMap.1 h
  simp only [pairCalls, List.mem_cons, List.not_mem_nil, or_false] at hcall
  rcases hcall with rfl | rfl <;> exact ⟨nofun, nofun⟩

theorem answered_of_answers {balances : Balances} {markets : List Market}
    {made : List (MadeCall σ)} {start : Timestamp} {symbols : List String} {s s₁ s₂ : σ}
    (hbalances : accounts.balances position s = (.ok balances, s₁))
    (hmarkets : accounts.markets position s₁ = (.ok markets, s₂))
    (hsum : Discovery.symbols? balances markets = some symbols)
    (h : ∀ m ∈ made, m.call ∈ symbols.flatMap (pairCalls position session start)) :
    Answered accounts (fun _ => symbols)
      (⟨s, .balances position⟩ :: ⟨s₁, .markets position⟩ :: made) := by
  have hbalances' : ∀ p w, (⟨w, .balances p⟩ : MadeCall σ) ∉ made := fun p w hmem =>
    (ne_of_mem_pairCalls (h _ hmem) p).1 rfl
  have hmarkets' : ∀ p w, (⟨w, .markets p⟩ : MadeCall σ) ∉ made := fun p w hmem =>
    (ne_of_mem_pairCalls (h _ hmem) p).2 rfl
  rintro p balances' markets' ⟨⟨w, hmem, hanswer⟩, ⟨w', hmem', hanswer'⟩⟩
  simp [hbalances'] at hmem
  simp [hmarkets'] at hmem'
  obtain ⟨rfl, rfl⟩ := hmem
  obtain ⟨rfl, -⟩ := hmem'
  rw [hbalances] at hanswer
  rw [hmarkets] at hanswer'
  cases hanswer
  cases hanswer'
  exact hsum

theorem syncSession_requested {request : RunRequest} {symbol : String}
    (hsymbol : request.symbol = some symbol) (hname : name position = session.name) (s : σ)
    (log : List (MadeCall σ)) :
    ∃ result s' made,
      syncSession accounts request position session s = (result, session, s') ∧
      syncSession accounts.recorded request position session (s, log) =
        (result, session, s', log ++ made) ∧
      Answered accounts (fun _ => []) made ∧
      Goes accounts name (sessionCalls request position session []) s made result s' := by
  obtain ⟨result, s', made, hplain, hrecorded, hgoes⟩ :=
    syncSymbols_goes accounts hname request.start [symbol] s log
  have hcalls : sessionCalls request position session [] =
      [symbol].flatMap (pairCalls position session request.start) := by
    rw [sessionCalls, hsymbol]
    rfl
  simp only [syncSession, hsymbol, hplain, hrecorded]
  exact ⟨_, _, made, rfl, rfl, answered_of_unlisted (fun m hm p =>
    (ne_of_mem_pairCalls (hgoes.mem_calls hm) p).2) _, hcalls ▸ hgoes⟩

theorem syncSession_discovered {request : RunRequest} (hsymbol : request.symbol = none)
    (hname : name position = session.name) (s : σ) (log : List (MadeCall σ)) :
    ∃ result session' s' made symbols,
      syncSession accounts request position session s = (result, session', s') ∧
      syncSession accounts.recorded request position session (s, log) =
        (result, session', s', log ++ made) ∧
      symbols.Pairwise (· < ·) ∧ Follows accounts name (fun _ => symbols)
        (sessionCalls request position session symbols) s made result s' := by
  simp only [syncSession, sessionCalls, hsymbol, discover]
  by_cases hstopped : accounts.stopped s = true
  · have hstopped' : accounts.recorded.stopped (s, log) = true := hstopped
    rw [if_pos hstopped, if_pos hstopped']
    refine ⟨_, _, _, [], [], rfl, ?_, List.Pairwise.nil,
      Or.inl ⟨answered_of_unlisted (by simp) _, .halted rfl hstopped⟩⟩
    rw [List.append_nil]
  have hstopped' : ¬ accounts.recorded.stopped (s, log) = true := hstopped
  have hgo : accounts.stopped s = false := by simpa using hstopped
  rw [if_neg hstopped, if_neg hstopped']
  obtain ⟨found, s₁, made, hplain, hrecorded, hfound⟩ := init_goes accounts hname s log hgo
  rw [hplain, hrecorded]
  rcases hfound with ⟨balances, markets, s₀, rfl, rfl, hbalances, hmarkets⟩ |
    ⟨hbad, hgoes, hnone⟩
  · cases hsum : Discovery.symbols? balances markets with
    | none =>
        simp only [hsum, Outcome.ofChecked]
        have hbreaks : Breaks accounts name (fun _ => [])
            [.balances position, .markets position] s
            [⟨s, .balances position⟩, ⟨s₀, .markets position⟩] s₁ :=
          .intro (List.nil_append _).symm (List.nil_append _).symm .done
            (answered_of_unlisted (by simp) _) hgo hbalances hmarkets hsum
        exact ⟨_, _, _, _, [], rfl, rfl, List.Pairwise.nil, Or.inr ⟨rfl, hbreaks⟩⟩
    | some symbols =>
        have hname' : name position = Session.name { session with balances, markets } := hname
        obtain ⟨result, s', made, hplain, hrecorded, hgoes⟩ :=
          syncSymbols_goes accounts hname' request.start symbols s₁
            (log ++ [⟨s, .balances position⟩, ⟨s₀, .markets position⟩])
        simp only [hsum, Outcome.ofChecked, hplain, hrecorded]
        have hanswered := answered_of_answers accounts hbalances hmarkets hsum
          fun _ => hgoes.mem_calls
        refine ⟨_, _, _, _, symbols, rfl, ?_, Discovery.symbols_ascending hsum,
          Or.inl ⟨hanswered, .asked accounts hgo hbalances hmarkets hgoes⟩⟩
        rw [List.append_assoc]
        rfl
  · cases found with
    | ok session' => exact absurd rfl hbad
    | error cause =>
        exact ⟨_, _, _, made, [], rfl, rfl, List.Pairwise.nil, Or.inl ⟨hnone _, hgoes⟩⟩
    | overflow =>
        exact ⟨_, _, _, made, [], rfl, rfl, List.Pairwise.nil, Or.inl ⟨hnone _, hgoes⟩⟩
    | exhausted =>
        exact ⟨_, _, _, made, [], rfl, rfl, List.Pairwise.nil, Or.inl ⟨hnone _, hgoes⟩⟩

theorem syncSession_follows (request : RunRequest) (hname : name position = session.name) (s : σ)
    (log : List (MadeCall σ)) :
    ∃ result session' s' made symbols,
      syncSession accounts request position session s = (result, session', s') ∧
      syncSession accounts.recorded request position session (s, log) =
        (result, session', s', log ++ made) ∧
      symbols.Pairwise (· < ·) ∧ Follows accounts name (fun _ => symbols)
        (sessionCalls request position session symbols) s made result s' := by
  cases hsymbol : request.symbol with
  | some symbol =>
      obtain ⟨result, s', made, hplain, hrecorded, hanswered, hgoes⟩ :=
        syncSession_requested accounts hsymbol hname s log
      exact ⟨result, session, s', made, [], hplain, hrecorded, List.Pairwise.nil,
        Or.inl ⟨hanswered, hgoes⟩⟩
  | none => exact syncSession_discovered accounts hsymbol hname s log

end Sessions

/-! ## All sessions -/

/-- The calls of a run over some sessions, each with its position, when `found` tells which
symbols the session at a position trades. -/
def plan (request : RunRequest) (found : Nat → List String) (targets : List (Session × Nat)) :
    List RunCall :=
  targets.flatMap fun target => sessionCalls request target.2 target.1 (found target.2)

/-- The sessions that are marked, each with its position. -/
def marked : Nat → List (Bool × Session) → List (Session × Nat)
  | _, [] => []
  | position, (true, session) :: sessions => (session, position) :: marked (position + 1) sessions
  | position, (false, _) :: sessions => marked (position + 1) sessions

theorem le_of_mem_marked {position : Nat} {sessions : List (Bool × Session)}
    {target : Session × Nat} (h : target ∈ marked position sessions) : position ≤ target.2 := by
  induction sessions generalizing position with
  | nil => cases h
  | cons first rest ih =>
      rcases first with ⟨_ | _, session⟩
      · have := ih h
        omega
      · rcases List.mem_cons.1 h with rfl | h
        · exact le_rfl
        · have := ih h
          omega

theorem plan_congr {request : RunRequest} {found found' : Nat → List String}
    {targets : List (Session × Nat)} (h : ∀ target ∈ targets, found target.2 = found' target.2) :
    plan request found targets = plan request found' targets := by
  rw [plan, plan, List.flatMap_def, List.flatMap_def]
  congr 1
  exact List.map_congr_left fun target htarget => by rw [h target htarget]

theorem le_of_mem_plan {request : RunRequest} {found : Nat → List String} {position : Nat}
    {sessions : List (Bool × Session)} {call : RunCall}
    (h : call ∈ plan request found (marked position sessions)) : position ≤ call.position := by
  obtain ⟨target, htarget, hcall⟩ := List.mem_flatMap.1 h
  rw [sessionCalls_position hcall]
  exact le_of_mem_marked htarget

theorem plan_update {request : RunRequest} {found : Nat → List String} {position : Nat}
    {session : Session} {symbols : List String} {sessions : List (Bool × Session)} :
    plan request (Function.update found position symbols)
        (marked position ((true, session) :: sessions)) =
      sessionCalls request position session symbols ++
        plan request found (marked (position + 1) sessions) := by
  have hlater : plan request (Function.update found position symbols)
      (marked (position + 1) sessions) = plan request found (marked (position + 1) sessions) := by
    refine plan_congr fun target htarget => Function.update_of_ne ?_ _ _
    have := le_of_mem_marked htarget
    omega
  rw [← hlater, marked, plan, List.flatMap_cons, Function.update_self, plan]

theorem update_ascending {found : Nat → List String} {position : Nat} {symbols : List String}
    (h : ∀ p, (found p).Pairwise (· < ·)) (hsymbols : symbols.Pairwise (· < ·)) (p : Nat) :
    (Function.update found position symbols p).Pairwise (· < ·) := by
  by_cases hp : p = position
  · rw [hp, Function.update_self]
    exact hsymbols
  · rw [Function.update_of_ne hp]
    exact h p

theorem syncSessions_follows (accounts : Accounts σ) {name : Nat → String} (request : RunRequest)
    (sessions : List (Bool × Session)) (position : Nat)
    (hname : ∀ i target, sessions[i]? = some target → name (position + i) = target.2.name) (s : σ)
    (log : List (MadeCall σ)) :
    ∃ result sessions' s' made found,
      syncSessions accounts request position sessions s = (result, sessions', s') ∧
      syncSessions accounts.recorded request position sessions (s, log) =
        (result, sessions', s', log ++ made) ∧
      (∀ p, (found p).Pairwise (· < ·)) ∧ Follows accounts name found
        (plan request found (marked position sessions)) s made result s' := by
  induction sessions generalizing position s log with
  | nil =>
      refine ⟨.ok (), [], s, [], fun _ => [], rfl, ?_, fun _ => List.Pairwise.nil,
        Or.inl ⟨answered_of_unlisted (by simp) _, .done⟩⟩
      rw [syncSessions, List.append_nil]
  | cons first rest ih =>
      have hrest : ∀ i target, rest[i]? = some target →
          name (position + 1 + i) = target.2.name := by
        intro i target h
        rw [show position + 1 + i = position + (i + 1) by omega]
        exact hname (i + 1) target h
      rcases first with ⟨_ | _, session⟩
      · -- a session that is not asked for
        obtain ⟨result, sessions', s', made, found, hplain, hrecorded, hall⟩ :=
          ih (position + 1) hrest s log
        exact ⟨result, session :: sessions', s', made, found, by simp [syncSessions, hplain],
          by simp [syncSessions, hrecorded], hall⟩
      · have hfirst : name position = session.name := hname 0 (true, session) rfl
        obtain ⟨result, session', s₁, made, symbols, hplain, hrecorded, hascending, hfollows⟩ :=
          syncSession_follows accounts request hfirst s log
        have hmade : ∀ m ∈ made, m.call.position = position := fun m hm =>
          sessionCalls_position (hfollows.mem_calls hm)
        have hupdate (found : Nat → List String) :
            Follows accounts name (Function.update found position symbols)
              (sessionCalls request position session symbols) s made result s₁ :=
          hfollows.congr fun m hm => by rw [hmade m hm, Function.update_self]
        simp only [syncSessions, hplain, hrecorded, if_true]
        -- where this session ends the run, what the others would trade does not matter
        have hstay (hbad : result ≠ .ok ()) :
            (∀ p, (Function.update (fun _ => []) position symbols p).Pairwise (· < ·)) ∧
            Follows accounts name (Function.update (fun _ => []) position symbols)
              (plan request (Function.update (fun _ => []) position symbols)
                (marked position ((true, session) :: rest))) s made result s₁ := by
          refine ⟨update_ascending (fun _ => List.Pairwise.nil) hascending, ?_⟩
          rw [plan_update]
          exact (hupdate _).stay hbad
        cases result with
        | ok value =>
            obtain ⟨result, sessions', s', made', found, hplain', hrecorded', hascending',
              hfollows'⟩ := ih (position + 1) hrest s₁ (log ++ made)
            have hmade' : ∀ m ∈ made', position + 1 ≤ m.call.position := fun m hm =>
              le_of_mem_plan (hfollows'.mem_calls hm)
            have hother : ∀ m ∈ made',
                Function.update found position symbols m.call.position =
                  found m.call.position := fun m hm => by
              have := hmade' m hm
              rw [Function.update_of_ne (by omega)]
            have hapart : ∀ m ∈ made, ∀ m' ∈ made', m.call.position ≠ m'.call.position := by
              intro m hm m' hm'
              have := hmade m hm
              have := hmade' m' hm'
              omega
            simp only [hplain', hrecorded']
            refine ⟨_, _, _, made ++ made', Function.update found position symbols, rfl, ?_,
              update_ascending hascending' hascending, ?_⟩
            · rw [List.append_assoc]
            · rw [plan_update]
              exact (hupdate found).append (hfollows'.congr hother) hapart
        | error cause => exact ⟨_, _, _, _, _, rfl, rfl, hstay nofun⟩
        | overflow => exact ⟨_, _, _, _, _, rfl, rfl, hstay nofun⟩
        | exhausted => exact ⟨_, _, _, _, _, rfl, rfl, hstay nofun⟩

/-! ## The run -/

/-- The sessions a run is over, each with its position: all of them, or the first of the name. None
if there is no session of the name. -/
def targets? (request : RunRequest) (sessions : List Session) : Option (List (Session × Nat)) :=
  match request.session with
  | none => some sessions.zipIdx
  | some name => (sessions.zipIdx.find? fun target => target.1.name = name).map ([·])

def nameAt (sessions : List Session) (position : Nat) : String :=
  (sessions[position]?.map Session.name).getD ""

theorem marked_all (sessions : List Session) (position : Nat) :
    marked position (sessions.map (true, ·)) = sessions.zipIdx position := by
  induction sessions generalizing position with
  | nil => rfl
  | cons session rest ih => rw [List.map_cons, marked, ih, List.zipIdx_cons]

theorem marked_none (sessions : List Session) (position : Nat) :
    marked position (sessions.map (false, ·)) = [] := by
  induction sessions generalizing position with
  | nil => rfl
  | cons session rest ih => rw [List.map_cons, marked, ih]

theorem marked_first (name : String) (sessions : List Session) (position : Nat) :
    (targetFirst name sessions).map (marked position) =
      ((sessions.zipIdx position).find? fun target => target.1.name = name).map ([·]) := by
  induction sessions generalizing position with
  | nil => rfl
  | cons session rest ih =>
      rw [targetFirst, List.zipIdx_cons, List.find?_cons]
      by_cases hname : session.name = name
      · rw [if_pos hname]
        simp [hname, marked, marked_none]
      · rw [if_neg hname]
        have hskip := ih (position + 1)
        simp only [hname, decide_false]
        rw [← hskip, Option.map_map]
        rfl

theorem targetFirst_sessions {name : String} {sessions : List Session}
    {flagged : List (Bool × Session)} (h : targetFirst name sessions = some flagged) :
    flagged.map Prod.snd = sessions := by
  induction sessions generalizing flagged with
  | nil => cases h
  | cons session rest ih =>
      rw [targetFirst] at h
      split at h
      · cases h
        simp [Function.comp_def]
      · obtain ⟨flagged', hflagged, rfl⟩ := Option.map_eq_some_iff.1 h
        rw [List.map_cons, ih hflagged]

theorem nameAt_flagged {sessions : List Session} {flagged : List (Bool × Session)}
    (h : flagged.map Prod.snd = sessions) (i : Nat) (target : Bool × Session)
    (htarget : flagged[i]? = some target) : nameAt sessions (0 + i) = target.2.name := by
  rw [← h, nameAt, Nat.zero_add, List.getElem?_map, htarget]
  rfl

/-- What is known of a run that is along a plan, whichever way it ends. -/
theorem Follows.spec {accounts : Accounts σ} {name : Nat → String} {found : Nat → List String}
    {calls : List RunCall} {made : List (MadeCall σ)} {result : Outcome RunError Unit} {s s' : σ}
    (h : Follows accounts name found calls s made result s') :
    ∃ rest, calls = made.map MadeCall.call ++ rest ∧
      (∀ m ∈ made, m.call.opens = true → accounts.stopped m.world = false) ∧
      ((SumsInRange accounts made ∧ Answered accounts found made ∧
          Ended accounts name made rest result s' ∧
          (result = .ok () ↔ rest = [] ∧ ∀ m ∈ made, (m.outcome accounts name).1 = .ok ())) ∨
        (¬ SumsInRange accounts made ∧ result = .overflow ∧
          BrokeOff accounts name found made s')) := by
  rcases h with ⟨hanswered, hgoes⟩ | ⟨hresult, hbreaks⟩
  · obtain ⟨rest, hcalls, hunstopped, hended⟩ := hgoes.spec
    exact ⟨rest, hcalls, hunstopped, Or.inl ⟨hanswered.sumsInRange, hanswered, hended,
      hended.ok_iff⟩⟩
  · obtain ⟨rest, hcalls, hunstopped, hbroke⟩ := hbreaks.spec
    exact ⟨rest, hcalls, hunstopped, Or.inr ⟨hbroke.not_sumsInRange, hresult, hbroke⟩⟩

/-- A run over the targeted sessions makes the calls of the plan, one after the other, up to the
first that does not end well or the first look at the signal to stop that finds it given. Where
the answers of a session call for a sum that is out of range, it breaks off after these answers
and ends neither well nor with an error. -/
theorem run_follows_plan (accounts : Accounts σ) (request : RunRequest) (sessions : List Session)
    (s : σ) :
    ∃ result sessions' s' made,
      run accounts request sessions s = (result, sessions', s') ∧
      run accounts.recorded request sessions (s, []) = (result, sessions', s', made) ∧
      match targets? request sessions with
      | none =>
        (∃ name, request.session = some name ∧ result = .error (.sessionNotFound name)) ∧ made = []
      | some targets =>
        ∃ found rest,
          (∀ p, (found p).Pairwise (· < ·)) ∧
          plan request found targets = made.map MadeCall.call ++ rest ∧
          (∀ m ∈ made, m.call.opens = true → accounts.stopped m.world = false) ∧
          ((SumsInRange accounts made ∧ Answered accounts found made ∧
              Ended accounts (nameAt sessions) made rest result s' ∧
              (result = .ok () ↔
                rest = [] ∧ ∀ m ∈ made, (m.outcome accounts (nameAt sessions)).1 = .ok ())) ∨
            (¬ SumsInRange accounts made ∧ result = .overflow ∧
              BrokeOff accounts (nameAt sessions) found made s')) := by
  -- over marked sessions the run is along the plan of those marked
  have hover (flagged : List (Bool × Session)) (hflagged : flagged.map Prod.snd = sessions) :=
    syncSessions_follows accounts request flagged 0 (nameAt_flagged hflagged) s []
  rw [run, run, targets?]
  cases hsession : request.session with
  | none =>
      obtain ⟨result, sessions', s', made, found, hplain, hrecorded, hascending, hfollows⟩ :=
        hover (sessions.map (true, ·)) (by simp [Function.comp_def])
      rw [marked_all] at hfollows
      obtain ⟨rest, hspec⟩ := hfollows.spec
      exact ⟨result, sessions', s', made, hplain, hrecorded, found, rest, hascending, hspec⟩
  | some name =>
      have hmarked := marked_first name sessions 0
      cases hfirst : targetFirst name sessions with
      | none =>
          rw [hfirst, Option.map_none] at hmarked
          simp only [hfirst, ← hmarked]
          exact ⟨_, _, _, [], rfl, rfl, ⟨name, rfl, rfl⟩, rfl⟩
      | some flagged =>
          obtain ⟨result, sessions', s', made, found, hplain, hrecorded, hascending, hfollows⟩ :=
            hover flagged (targetFirst_sessions hfirst)
          rw [hfirst, Option.map_some] at hmarked
          simp only [hfirst, ← hmarked]
          obtain ⟨rest, hspec⟩ := hfollows.spec
          exact ⟨result, sessions', s', made, hplain, hrecorded, found, rest, hascending, hspec⟩

/-- Accounts that answer every question. One has as many dollars as can be written down, and one
more that is reserved. -/
def overfull : Accounts Unit where
  stopped _ := false
  balances _ s :=
    (.ok (.ofList [Discovery.holding "USD" (2 ^ 96 - 1, 0) (1, 0),
      Discovery.holding "BTC" (1, 0) (0, 0)]), s)
  markets _ s := (.ok [⟨"BTC/USD", "BTC", "USD"⟩], s)
  sync _ _ _ _ s := (.ok (), s)

/-- Every call is answered and nobody stops the run, and yet it ends neither well nor with an error.
It has asked the session and copied nothing. -/
theorem run_breaks_off :
    let ended := run overfull.recorded ⟨none, none, .epoch⟩ [.new "spot"] ((), [])
    ended.2.2.2.map MadeCall.call = [.balances 0, .markets 0] ∧
      (∀ m ∈ ended.2.2.2, (m.outcome overfull (nameAt [.new "spot"])).1 = .ok ()) ∧
      (∀ s, overfull.stopped s = false) ∧
      ended.1 ≠ .ok () ∧ ∀ cause, ended.1 ≠ .error cause := by
  have hcalls : (run overfull.recorded ⟨none, none, .epoch⟩ [.new "spot"] ((), [])).2.2.2 =
      [⟨(), .balances 0⟩, ⟨(), .markets 0⟩] := by
    rfl
  have hended : (run overfull.recorded ⟨none, none, .epoch⟩ [.new "spot"] ((), [])).1 =
      .overflow := by
    decide +kernel
  refine ⟨by rw [hcalls]; rfl, ?_, fun _ => rfl, by rw [hended]; nofun, ?_⟩
  · rw [hcalls]
    exact List.forall_mem_cons.2 ⟨rfl, List.forall_mem_singleton.2 rfl⟩
  · intro cause
    rw [hended]
    nofun

/-- Accounts of which the second fails to copy orders. -/
def secondFails : Accounts Unit where
  stopped _ := false
  balances _ s := (.ok [], s)
  markets _ s := (.ok [], s)
  sync kind position _ _ s :=
    if kind = .orders ∧ position = 1 then (.error .cancelled, s) else (.ok (), s)

example :
    let sessions := [.new "spot", (Session.new "margin").withIsolatedMargin "ETHUSDT", .new "last"]
    let ended := run secondFails.recorded ⟨none, some "BTCUSDT", .epoch⟩ sessions ((), [])
    ended.1 = .error (.sync "margin" "ETHUSDT" .orders .cancelled) ∧
      ended.2.2.2.map MadeCall.call =
        [.sync .trades 0 "BTCUSDT" .epoch, .sync .orders 0 "BTCUSDT" .epoch,
          .sync .trades 1 "ETHUSDT" .epoch, .sync .orders 1 "ETHUSDT" .epoch] := by
  decide

end Run

end Tradebook
