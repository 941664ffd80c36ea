import Mathlib
import Tradebook.Proofs.StreamQueue
import Tradebook.Proofs.StreamStanding

/-!
# What the other end has heard of a subscription

On a connection the other end takes a market for subscribed if the last frame about it that got
through is a subscription (`lastWord`). The stream goes by its queue. The queue is changed
first and the frame is sent afterwards, and a frame that fails leaves the queue changed. The next
call of the same kind then finds nothing to do and says nothing, though it ends well.

Every frame about a market that a stream tries to send turns the queue over, and every one
that gets through makes the other end agree. So the two sides differ exactly if an odd number of
frames failed since the last that got through (`misses`), and a new connection begins
with agreement. `heard_iff_even_misses` reads this off after a call that ended well, and
`failed_subscribe_stays_unheard` is the shortest run in which the other end has heard nothing.
-/

namespace Tradebook.Ftx

variable {σ : Type}

def Frame.isAbout (market : String) : Frame → Bool
  | .subscribe other => other = market
  | .unsubscribe other => other = market
  | _ => false

/-- The last frame about a market. -/
def lastWord (market : String) (frames : List Frame) : Option Frame :=
  (frames.filter (Frame.isAbout market)).getLast?

theorem lastWord_about {market : String} {frame : Frame} (h : frame.isAbout market = true)
    (frames : List Frame) : lastWord market (frames ++ [frame]) = some frame := by
  rw [lastWord, List.filter_append, List.filter_singleton, h]
  exact List.getLast?_concat

theorem lastWord_other {market : String} {frame : Frame} (h : frame.isAbout market = false)
    (frames : List Frame) : lastWord market (frames ++ [frame]) = lastWord market frames := by
  rw [lastWord, List.filter_append, List.filter_singleton, h]
  simp [lastWord]

/-- Whoever hears the whole queue hears of every market in it. -/
theorem lastWord_queueOf (login : Option Login) (markets : List String) (market : String) :
    lastWord market (queueOf login markets) = some (.subscribe market) ↔ market ∈ markets := by
  have hnone : lastWord market (queueOf login []) = none := by
    cases login <;> rfl
  induction markets using List.reverseRecOn with
  | nil => simp [hnone]
  | append_singleton markets last ih =>
      rw [← queueOf_concat]
      by_cases hlast : last = market
      · rw [lastWord_about (by simpa [Frame.isAbout] using hlast)]
        simp [hlast]
      · rw [lastWord_other (by simpa [Frame.isAbout] using hlast)]
        simpa [Ne.symm hlast] using ih

/-! ## Frames that failed -/

/-- The market that a move is about. -/
def Move.market? : Move σ → Option String
  | .subscribe .book symbol _ => some (normalizeSymbol symbol)
  | .unsubscribe .book symbol => some (normalizeSymbol symbol)
  | _ => none

namespace Moment

/-- How a move ends. -/
def answer (wire : StreamWire σ) (m : Moment σ) : Move σ → Except StreamError Unit
  | .connect => (m.connect wire).1
  | .subscribe channel symbol options => (m.subscribe wire channel symbol options).1
  | .unsubscribe channel symbol => (m.unsubscribe wire channel symbol).1
  | _ => .ok ()

/-- A move that tries to send a frame about the market. -/
def Speaks (wire : StreamWire σ) (market : String) (m : Moment σ) (move : Move σ) : Prop :=
  move.market? = some market ∧ (m.after wire move).log ≠ m.log

instance (wire : StreamWire σ) (market : String) (m : Moment σ) (move : Move σ) :
    Decidable (m.Speaks wire market move) :=
  inferInstanceAs (Decidable (_ ∧ _))

def missesAfter (wire : StreamWire σ) (market : String) (m : Moment σ) (count : Nat)
    (move : Move σ) : Nat :=
  match m.answer wire move with
  | .ok () => if move.isConnect ∨ m.Speaks wire market move then 0 else count
  | .error _ => if m.Speaks wire market move then count + 1 else count

/-- How many frames about the market failed one after the other, since one of them got through or
the connection came about. So many did before the first move. -/
def misses (wire : StreamWire σ) (market : String) : Moment σ → Nat → List (Move σ) → Nat
  | _, count, [] => count
  | m, count, move :: moves =>
    misses wire market (m.after wire move) (m.missesAfter wire market count move) moves

theorem misses_concat (wire : StreamWire σ) (market : String) (m : Moment σ) (count : Nat)
    (moves : List (Move σ)) (move : Move σ) :
    misses wire market m count (moves ++ [move]) =
      (m.run wire moves).missesAfter wire market (misses wire market m count moves) move := by
  induction moves generalizing m count with
  | nil => rfl
  | cons first moves ih => exact ih (m.after wire first) (m.missesAfter wire market count first)

theorem missesAfter_silent {wire : StreamWire σ} {market : String} {m : Moment σ} {move : Move σ}
    (hconnect : move.isConnect = false) (hsilent : ¬ m.Speaks wire market move) (count : Nat) :
    m.missesAfter wire market count move = count := by
  unfold missesAfter
  split <;> simp [hconnect, hsilent]

end Moment

/-! ## The queue against the last word -/

/-- The two sides agree on the market exactly if the number of frames is even. -/
def InStep (market : String) (sent queue : List Frame) (count : Nat) : Prop :=
  (lastWord market sent = some (.subscribe market) ↔ .subscribe market ∈ queue) ↔ Even count

section Sending

variable {market : String} {sent queue : List Frame} {count : Nat}

theorem inStep_queueOf (login : Option Login) (markets : List String) :
    InStep market (queueOf login markets) (queueOf login markets) 0 := by
  rw [InStep, lastWord_queueOf, mem_queueOf]
  simp

/-- A frame that gets through settles the matter, and one that fails turns it over. -/
theorem inStep_told {frame : Frame} (habout : frame.isAbout market = true)
    (hqueue : .subscribe market ∈ queue ↔ frame = .subscribe market) :
    InStep market (sent ++ [frame]) queue 0 := by
  rw [InStep, lastWord_about habout, hqueue]
  simp

theorem InStep.missed {queue' : List Frame} (h : InStep market sent queue count)
    (hqueue : .subscribe market ∈ queue' ↔ .subscribe market ∉ queue) :
    InStep market sent queue' (count + 1) := by
  have hturn : (lastWord market sent = some (.subscribe market) ↔ .subscribe market ∉ queue) ↔
      ¬ (lastWord market sent = some (.subscribe market) ↔ .subscribe market ∈ queue) := by
    tauto
  rw [InStep, hqueue, hturn, Nat.even_add_one]
  exact not_congr h

theorem InStep.other {sent' queue' : List Frame} (h : InStep market sent queue count)
    (hsent : lastWord market sent' = lastWord market sent)
    (hqueue : .subscribe market ∈ queue' ↔ .subscribe market ∈ queue) :
    InStep market sent' queue' count := by
  rw [InStep, hsent, hqueue]
  exact h

end Sending

/-! ## What lives on -/

section Links

variable {wire : StreamWire σ} {b : BookStream} {sent : List Frame} {s : σ}

theorem sendNow_live (wire : StreamWire σ) (frame : Frame) (s : σ) (log : List Emission)
    (hstate : b.state = .connected) (hlink : b.link = .live sent) :
    (∃ s', BookStream.sendNow wire.recorded frame b (s, log) =
      (.ok (), { b with link := .live (sent ++ [frame]) }, s', log ++ [.send (.frame frame)])) ∨
    ∃ detail s', BookStream.sendNow wire.recorded frame b (s, log) =
      (.error (.sendFailed detail), b, s', log ++ [.send (.frame frame)]) := by
  rcases hanswer : wire.send (.frame frame) s with ⟨failure, s'⟩
  have hsend : wire.recorded.send (.frame frame) (s, log) =
      (failure, s', log ++ [.send (.frame frame)]) := by
    simp [StreamWire.recorded, hanswer]
  rw [BookStream.sendNow, hstate, hlink]
  simp only [hsend]
  cases failure with
  | none => exact Or.inl ⟨s', rfl⟩
  | some detail => exact Or.inr ⟨detail, s', rfl⟩

theorem live_of_lose {earlier : List Frame} {reason : String}
    (h : (b.lose earlier reason).link = .live sent) : False := by
  unfold BookStream.lose at h
  dsimp only at h
  split at h <;> cases h

theorem live_of_close (h : (b.close wire s).1.link = .live sent) : False := by
  unfold BookStream.close at h
  split at h
  · cases h
  · next hheld =>
      rw [show b.link = .live sent from h] at hheld
      exact hheld rfl

theorem live_of_receive {incoming : Incoming}
    (h : (b.receive wire incoming s).1.link = .live sent) : b.link = .live sent := by
  unfold BookStream.receive at h
  split at h
  · cases incoming with
    | text payload => exact h
    | binary payload => exact h
    | ping payload =>
        dsimp only at h
        split at h
        · exact h
        · exact (live_of_lose h).elim
    | pong => exact h
    | close reason => exact (live_of_lose h).elim
    | broken detail => exact (live_of_lose h).elim
    | ended => exact (live_of_lose h).elim
  · exact h
  · exact h

theorem live_of_keepAlive (h : (b.keepAlive wire s).1.link = .live sent) :
    b.link = .live sent ∨ ∃ earlier, b.link = .live earlier ∧ sent = earlier ++ [.ping] := by
  unfold BookStream.keepAlive at h
  split at h
  · next earlier hlink =>
      split at h
      · cases h
        exact Or.inr ⟨earlier, hlink, rfl⟩
      · exact (live_of_lose h).elim
  · exact Or.inl h
  · exact Or.inl h

end Links

/-- On its connection, if it has one, the stream and the other end are in step about a market. -/
def Moment.Attuned (market : String) (m : Moment σ) (count : Nat) : Prop :=
  ∀ sent, m.stream.link = .live sent → InStep market sent m.stream.queue count

section Moves

variable {wire : StreamWire σ} {market : String} {m : Moment σ} {move : Move σ} {count : Nat}

/-- A move that is not about subscriptions. -/
theorem Moment.Attuned.quiet (h : m.Attuned market count) (hconnect : move.isConnect = false)
    (hmarket : move.market? = none)
    (hqueue : (m.after wire move).stream.queue = m.stream.queue)
    (hlink : ∀ sent, (m.after wire move).stream.link = .live sent →
      ∃ earlier, m.stream.link = .live earlier ∧ lastWord market sent = lastWord market earlier) :
    (m.after wire move).Attuned market (m.missesAfter wire market count move) := by
  have hsilent : ¬ m.Speaks wire market move := by
    rintro ⟨hspoken, -⟩
    rw [hmarket] at hspoken
    cases hspoken
  rw [missesAfter_silent hconnect hsilent]
  intro sent hlive
  obtain ⟨earlier, hearlier, hword⟩ := hlink sent hlive
  exact (h earlier hearlier).other hword (by rw [hqueue])

/-- A move that turns the queue over about one market and sends a frame about it. -/
theorem Moment.Attuned.requeued (h : m.Attuned market count) (hcoherent : Coherent m.standing)
    (about : String) (frame : Frame) (queue : List Frame) (hconnect : move.isConnect = false)
    (hmarket : move.market? = some about)
    (habout : frame.isAbout market = true ↔ market = about)
    (htold : .subscribe about ∈ queue ↔ frame = .subscribe about)
    (hturned : .subscribe about ∈ queue ↔ .subscribe about ∉ m.stream.queue)
    (hothers : market ≠ about →
      (.subscribe market ∈ queue ↔ .subscribe market ∈ m.stream.queue))
    {ended : Except StreamError Unit × BookStream × σ × List Emission}
    (hended : ended = BookStream.sendNow wire.recorded frame { m.stream with queue }
      (m.world, m.log))
    (hanswer : m.answer wire move = ended.1) (hafter : m.after wire move = .ofParts ended.2) :
    (m.after wire move).Attuned market (m.missesAfter wire market count move) := by
  subst hended
  intro sent' hlive
  obtain ⟨sent, hlink⟩ : ∃ sent, m.stream.link = .live sent := by
    rw [hafter] at hlive
    have hsame := sendNow_standing wire.recorded frame { m.stream with queue } (m.world, m.log)
    exact (phase_live_iff _).1
      ((congrArg Standing.phase hsame).symm.trans (congrArg Link.phase hlive))
  have hspeaks (hlog : (m.after wire move).log = m.log ++ [.send (.frame frame)]) :
      m.Speaks wire market move ↔ market = about := by
    rw [Speaks, hmarket, hlog]
    simp [eq_comm]
  have hup : m.stream.state = .connected :=
    hcoherent.connected_iff.2 ((phase_live_iff _).2 ⟨sent, hlink⟩)
  rcases sendNow_live (b := { m.stream with queue }) wire frame m.world m.log hup hlink with
    ⟨s', hsent⟩ | ⟨detail, s', hfailed⟩
  · rw [hsent] at hanswer hafter
    have hspeaks := hspeaks (by rw [hafter]; rfl)
    rw [hafter] at hlive ⊢
    cases hlive
    by_cases hmine : market = about
    · subst hmine
      have hcount : m.missesAfter wire market count move = 0 := by
        rw [missesAfter, hanswer]
        exact if_pos (Or.inr (hspeaks.2 rfl))
      rw [hcount]
      exact inStep_told (habout.2 rfl) htold
    · rw [missesAfter_silent hconnect (mt hspeaks.1 hmine)]
      exact (h sent hlink).other (lastWord_other (by simpa [hmine] using habout) sent)
        (hothers hmine)
  · rw [hfailed] at hanswer hafter
    have hspeaks := hspeaks (by rw [hafter]; rfl)
    rw [hafter] at hlive ⊢
    obtain rfl : sent = sent' := Link.live.inj (hlink.symm.trans hlive)
    by_cases hmine : market = about
    · subst hmine
      have hcount : m.missesAfter wire market count move = count + 1 := by
        rw [missesAfter, hanswer]
        exact if_pos (hspeaks.2 rfl)
      rw [hcount]
      exact (h sent hlink).missed hturned
    · rw [missesAfter_silent hconnect (mt hspeaks.1 hmine)]
      exact (h sent hlink).other rfl (hothers hmine)

theorem Moment.Attuned.still (h : m.Attuned market count) (hconnect : move.isConnect = false)
    (hsame : m.after wire move = m) :
    (m.after wire move).Attuned market (m.missesAfter wire market count move) := by
  rw [missesAfter_silent hconnect fun hspeaks => hspeaks.2 (by rw [hsame]), hsame]
  exact h

theorem Moment.Attuned.subscribe (h : m.Attuned market count) (hcoherent : Coherent m.standing)
    (channel : Channel) (symbol : String) (options : SubscribeOptions) :
    (m.after wire (.subscribe channel symbol options)).Attuned market
      (m.missesAfter wire market count (.subscribe channel symbol options)) := by
  by_cases hchannel : channel = .book
  · subst hchannel
    have hop := BookStream.subscribe_book wire.recorded symbol options m.stream (m.world, m.log)
    generalize hframe : Frame.subscribe (normalizeSymbol symbol) = frame at hop
    by_cases hknown : m.stream.queue.contains frame = true
    · rw [if_pos hknown] at hop
      refine h.still rfl ?_
      rw [after, Moment.subscribe, hop]
      rfl
    · rw [if_neg hknown] at hop
      rw [List.contains_iff_mem] at hknown
      refine h.requeued hcoherent (normalizeSymbol symbol) frame (m.stream.queue ++ [frame])
        rfl rfl ?_ ?_ ?_ ?_ hop rfl rfl
      · simp [← hframe, Frame.isAbout, eq_comm]
      · simp [← hframe]
      · simp [hframe, hknown]
      · intro hother
        simp [← hframe, hother]
  · refine h.still rfl ?_
    rw [after, Moment.subscribe, BookStream.subscribe_other _ hchannel]
    rfl

theorem Moment.Attuned.unsubscribe (h : m.Attuned market count) (hcoherent : Coherent m.standing)
    (channel : Channel) (symbol : String) :
    (m.after wire (.unsubscribe channel symbol)).Attuned market
      (m.missesAfter wire market count (.unsubscribe channel symbol)) := by
  by_cases hchannel : channel = .book
  · subst hchannel
    have hop := BookStream.unsubscribe_book wire.recorded symbol m.stream (m.world, m.log)
    by_cases hknown : m.stream.queue.contains (.subscribe (normalizeSymbol symbol)) = true
    · rw [if_pos hknown] at hop
      rw [List.contains_iff_mem] at hknown
      refine h.requeued hcoherent (normalizeSymbol symbol) (.unsubscribe (normalizeSymbol symbol))
        (m.stream.queue.filter (· ≠ .subscribe (normalizeSymbol symbol))) rfl rfl
        ?_ ?_ ?_ ?_ hop rfl rfl
      · simp [Frame.isAbout, eq_comm]
      · simp
      · simp [hknown]
      · intro hother
        simp [hother]
    · rw [if_neg hknown] at hop
      refine h.still rfl ?_
      rw [after, Moment.unsubscribe, hop]
      rfl
  · refine h.still rfl ?_
    rw [after, Moment.unsubscribe, BookStream.unsubscribe_other _ hchannel]
    rfl

/-- A new connection hears the whole queue, and without one there is nothing to agree on. -/
theorem Moment.Attuned.connect (h : m.Attuned market count) (hcoherent : Coherent m.standing)
    {login : Option Login} {markets : List String}
    (hqueue : (m.after wire .connect).stream.queue = queueOf login markets) :
    (m.after wire .connect).Attuned market (m.missesAfter wire market count .connect) := by
  have hcount : m.missesAfter wire market count .connect =
      match (m.connect wire).1 with
      | .ok () => 0
      | .error _ => count := by
    have hsilent : ¬ m.Speaks wire market .connect := fun hspeaks => nomatch hspeaks.1
    rw [missesAfter]
    simp only [hsilent, Move.isConnect, true_or, if_true, if_false]
    rfl
  intro sent hlive
  have hend := Moment.connect_end wire m
  change (m.connect wire).2.stream.link = .live sent at hlive
  change (m.connect wire).2.stream.queue = _ at hqueue
  show InStep market sent (m.connect wire).2.stream.queue _
  rw [hcount]
  generalize (m.connect wire).1 = result, (m.connect wire).2.stream = stream,
    ((m.connect wire).2.world, (m.connect wire).2.log) = world at hend hlive hqueue ⊢
  cases hend with
  | refused _ => exact h sent hlive
  | unsigned hidle _ _ =>
      exact absurd ((phase_live_iff _).2 ⟨sent, hlive⟩) (hcoherent.idle hidle).1
  | failed _ _ _ => cases hlive
  | @up queue said _ _ _ hup =>
      obtain ⟨made, -, -, hall⟩ :=
        BookStream.establish_log wire m.stream.config.wsUrl queue m.world m.log
      rw [hup] at hall
      obtain ⟨-, hsaid⟩ := hall said rfl
      have hsent : said = sent := Link.live.inj hlive
      show InStep market sent queue 0
      rw [← hsent, hsaid, show queue = queueOf login markets from hqueue]
      exact inStep_queueOf login markets

theorem Moment.Attuned.after (h : m.Attuned market count) (hcoherent : Coherent m.standing)
    {login : Option Login} {markets : List String} (move : Move σ)
    (hqueue : (m.after wire move).stream.queue = queueOf login markets) :
    (m.after wire move).Attuned market (m.missesAfter wire market count move) := by
  cases move with
  | publish =>
      have hsame : (m.after wire .publish).stream.queue = m.stream.queue ∧
          (m.after wire .publish).stream.link = m.stream.link := by
        show m.stream.setPublicOnly.queue = _ ∧ m.stream.setPublicOnly.link = _
        unfold BookStream.setPublicOnly
        split <;> exact ⟨rfl, rfl⟩
      exact h.quiet rfl rfl hsame.1 fun sent hlive => ⟨sent, hsame.2 ▸ hlive, rfl⟩
  | connect => exact h.connect hcoherent hqueue
  | subscribe channel symbol options => exact h.subscribe hcoherent channel symbol options
  | unsubscribe channel symbol => exact h.unsubscribe hcoherent channel symbol
  | close =>
      exact h.quiet rfl rfl
        (BookStream.close_quiet wire.recorded m.stream (m.world, m.log)).queue
        fun sent hlive => (live_of_close hlive).elim
  | receive incoming =>
      exact h.quiet rfl rfl
        (BookStream.receive_quiet wire.recorded incoming m.stream (m.world, m.log)).queue
        fun sent hlive => ⟨sent, live_of_receive hlive, rfl⟩
  | keepAlive =>
      refine h.quiet rfl rfl
        (BookStream.keepAlive_quiet wire.recorded m.stream (m.world, m.log)).queue
        fun sent hlive => ?_
      rcases live_of_keepAlive hlive with hsame | ⟨earlier, hearlier, rfl⟩
      · exact ⟨sent, hsame, rfl⟩
      · exact ⟨earlier, hearlier, lastWord_other rfl earlier⟩
  | pass world => exact h.quiet rfl rfl rfl fun sent hlive => ⟨sent, hlive, rfl⟩

theorem attuned_run (wire : StreamWire σ) (config : Config) (sink : Broadcast) (world : σ)
    (market : String) (moves : List (Move σ)) :
    (Moment.run wire (.start config sink world) moves).Attuned market
      (Moment.misses wire market (.start config sink world) 0 moves) := by
  induction moves using List.reverseRecOn with
  | nil => exact fun _ hlive => nomatch hlive
  | append_singleton moves move ih =>
      obtain ⟨login, hqueue, -⟩ := (orderly_run wire config sink world (moves ++ [move])).queue
      rw [Moment.run_concat] at hqueue ⊢
      rw [Moment.misses_concat]
      exact ih.after (coherent_run wire config sink world moves) move hqueue

end Moves

/-! ## After a call that ended well -/

section Calls

variable {wire : StreamWire σ} {m m' : Moment σ} {channel : Channel} {symbol : String}

theorem mem_queue_of_subscribe {options : SubscribeOptions}
    (h : m.subscribe wire channel symbol options = (.ok (), m')) :
    .subscribe (normalizeSymbol symbol) ∈ m'.stream.queue := by
  obtain ⟨hok, rfl⟩ := Prod.ext_iff.1 h
  by_cases hchannel : channel = .book
  · subst hchannel
    show _ ∈ (m.stream.subscribe wire.recorded .book symbol options (m.world, m.log)).2.1.queue
    rw [BookStream.subscribe_book]
    split
    · next hknown => exact List.contains_iff_mem.1 hknown
    · rw [(BookStream.sendNow_quiet ..).queue]
      simp
  · rw [Moment.subscribe, BookStream.subscribe_other _ hchannel] at hok
    cases hok

theorem not_mem_queue_of_unsubscribe (h : m.unsubscribe wire channel symbol = (.ok (), m')) :
    .subscribe (normalizeSymbol symbol) ∉ m'.stream.queue := by
  obtain ⟨hok, rfl⟩ := Prod.ext_iff.1 h
  by_cases hchannel : channel = .book
  · subst hchannel
    show _ ∉ (m.stream.unsubscribe wire.recorded .book symbol (m.world, m.log)).2.1.queue
    rw [BookStream.unsubscribe_book]
    split
    · rw [(BookStream.sendNow_quiet ..).queue]
      simp
    · next hunknown => exact fun hmem => hunknown (List.contains_iff_mem.2 hmem)
  · rw [Moment.unsubscribe, BookStream.unsubscribe_other _ hchannel] at hok
    cases hok

theorem inStep_of_connected {config : Config} {sink : Broadcast} {world : σ}
    {moves : List (Move σ)} (hm : Moment.run wire (.start config sink world) moves = m)
    (hconnected : m.stream.state = .connected) (market : String) :
    ∃ sent, m.stream.link = .live sent ∧ InStep market sent m.stream.queue
      (Moment.misses wire market (.start config sink world) 0 moves) := by
  have hattuned := attuned_run wire config sink world market moves
  have hcoherent := coherent_run wire config sink world moves
  rw [hm] at hattuned hcoherent
  obtain ⟨sent, hlive⟩ := (phase_live_iff _).1 (hcoherent.connected_iff.1 hconnected)
  exact ⟨sent, hlive, hattuned sent hlive⟩

end Calls

/-- After a call that ended well on a stream that is connected, the other end has heard of it
exactly if an even number of frames about the market failed since the last that got through, or
since the connection came about. -/
theorem heard_iff_even_misses (wire : StreamWire σ) (config : Config) (sink : Broadcast) (world : σ)
    (moves : List (Move σ)) :
    let first := Moment.start config sink world
    let m := Moment.run wire first moves
    (∀ channel symbol options m', m.subscribe wire channel symbol options = (.ok (), m') →
      m'.stream.state = .connected →
      ∃ sent, m'.stream.link = .live sent ∧
        (lastWord (normalizeSymbol symbol) sent = some (.subscribe (normalizeSymbol symbol)) ↔
          Even (Moment.misses wire (normalizeSymbol symbol) first 0
            (moves ++ [.subscribe channel symbol options])))) ∧
    ∀ channel symbol m', m.unsubscribe wire channel symbol = (.ok (), m') →
      m'.stream.state = .connected →
      ∃ sent, m'.stream.link = .live sent ∧
        (lastWord (normalizeSymbol symbol) sent ≠ some (.subscribe (normalizeSymbol symbol)) ↔
          Even (Moment.misses wire (normalizeSymbol symbol) first 0
            (moves ++ [.unsubscribe channel symbol]))) := by
  intro first m
  constructor
  · intro channel symbol options m' hcall hconnected
    have hm : Moment.run wire first (moves ++ [.subscribe channel symbol options]) = m' := by
      rw [Moment.run_concat]
      exact congrArg Prod.snd hcall
    obtain ⟨sent, hlive, hstep⟩ := inStep_of_connected hm hconnected (normalizeSymbol symbol)
    refine ⟨sent, hlive, ?_⟩
    rw [InStep, iff_true_right (mem_queue_of_subscribe hcall)] at hstep
    exact hstep
  · intro channel symbol m' hcall hconnected
    have hm : Moment.run wire first (moves ++ [.unsubscribe channel symbol]) = m' := by
      rw [Moment.run_concat]
      exact congrArg Prod.snd hcall
    obtain ⟨sent, hlive, hstep⟩ := inStep_of_connected hm hconnected (normalizeSymbol symbol)
    refine ⟨sent, hlive, ?_⟩
    rw [InStep, iff_false_right (not_mem_queue_of_unsubscribe hcall)] at hstep
    exact hstep

-- Two frames that fail, one to end the subscription and one to begin it again, leave the two sides
-- where they were.
example :
    let moves := [.publish, .subscribe .book "btc" ⟨none, none⟩, .connect, .pass (some "reset"),
      .unsubscribe .book "btc", .subscribe .book "btc" ⟨none, none⟩]
    let start : Moment (Option String) := .start .default .default none
    Moment.misses moody "BTC" start 0 moves = 2 ∧
      (Moment.run moody start moves).stream.link = .live [.subscribe "BTC"] ∧
      (Moment.run moody start moves).stream.queue = [.subscribe "BTC"] :=
  ⟨rfl, rfl, rfl⟩

/-- The first frame fails, the second call finds the market in the queue, and nothing was
ever heard. -/
theorem failed_subscribe_stays_unheard :
    let up := Moment.run moody (.start .default .default none) [.publish, .connect]
    let failed := (up.after moody (.pass (some "reset"))).subscribe moody .book "btc" ⟨none, none⟩
    let again := (failed.2.after moody (.pass none)).subscribe moody .book "btc" ⟨none, none⟩
    failed.1 = .error (.sendFailed "reset") ∧ again.1 = .ok () ∧
      again.2.stream.state = .connected ∧ again.2.stream.queue = [.subscribe "BTC"] ∧
      again.2.stream.link = .live [] :=
  ⟨rfl, rfl, rfl, rfl, rfl⟩

end Tradebook.Ftx
