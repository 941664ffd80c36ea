import Mathlib
import Tradebook.Proofs.StreamRun

/-!
# What a stream says on every connection

The queue of a stream is a login, or none, and then one subscription for each market that is
subscribed, in the order in which they were. Which markets these are can be read off
the moves alone (`wanted`), and so can whether the stream was made public in time
(`madePublic`). A stream made public in time never has a login to send. Any other has a new one
with every connection, signed at the time it is made.

Before the first attempt to connect nothing goes out and there is no login. This has
to be carried along (`Orderly.untried`), for up to that moment the stream can still be made
public.
-/

namespace Tradebook.Ftx

variable {σ : Type}

/-! ## Reading off the moves -/

def Move.isConnect : Move σ → Bool
  | .connect => true
  | _ => false

/-- Whether the stream was made public before the first attempt to connect. -/
def madePublic : List (Move σ) → Bool
  | [] => false
  | .publish :: _ => true
  | .connect :: _ => false
  | _ :: moves => madePublic moves

/-- The markets that are subscribed after a move. -/
def Move.wantedAfter (markets : List String) : Move σ → List String
  | .subscribe .book symbol _ =>
    if normalizeSymbol symbol ∈ markets then markets else markets ++ [normalizeSymbol symbol]
  | .unsubscribe .book symbol => markets.filter (· ≠ normalizeSymbol symbol)
  | _ => markets

def wanted (moves : List (Move σ)) : List String :=
  moves.foldl Move.wantedAfter []

theorem wanted_concat (moves : List (Move σ)) (move : Move σ) :
    wanted (moves ++ [move]) = move.wantedAfter (wanted moves) := by
  rw [wanted, List.foldl_append, List.foldl_cons, List.foldl_nil, wanted]

/-- The exchange offers no channel but the book. -/
theorem wantedAfter_subscribe_other {channel : Channel} (hchannel : channel ≠ .book)
    (markets : List String) (symbol : String) (options : SubscribeOptions) :
    (Move.subscribe channel symbol options : Move σ).wantedAfter markets = markets := by
  cases channel with
  | book => exact absurd rfl hchannel
  | trade => rfl
  | bookTicker => rfl

theorem wantedAfter_unsubscribe_other {channel : Channel} (hchannel : channel ≠ .book)
    (markets : List String) (symbol : String) :
    (Move.unsubscribe channel symbol : Move σ).wantedAfter markets = markets := by
  cases channel with
  | book => exact absurd rfl hchannel
  | trade => rfl
  | bookTicker => rfl

theorem wanted_nodup (moves : List (Move σ)) : (wanted moves).Nodup := by
  induction moves using List.reverseRecOn with
  | nil => exact List.nodup_nil
  | append_singleton moves move ih =>
      rw [wanted_concat]
      unfold Move.wantedAfter
      split
      · split
        · exact ih
        · next hnew => simpa [List.concat_eq_append] using ih.concat hnew
      · exact ih.filter _
      · exact ih

theorem madePublic_publish (moves : List (Move σ)) :
    madePublic (moves ++ [.publish]) = (madePublic moves || !moves.any Move.isConnect) := by
  induction moves with
  | nil => rfl
  | cons move moves ih => cases move <;> simp [madePublic, Move.isConnect, ih]

theorem madePublic_other (moves : List (Move σ)) {move : Move σ} (hmove : move ≠ .publish) :
    madePublic (moves ++ [move]) = madePublic moves := by
  induction moves with
  | nil => cases move <;> simp [madePublic] at hmove ⊢
  | cons first moves ih => cases first <;> simp [madePublic, ih]

/-! ## The queue -/

/-- A login, or none, and a subscription for each market. -/
def queueOf (login : Option Login) (markets : List String) : List Frame :=
  (login.map Frame.login).toList ++ markets.map .subscribe

theorem mem_queueOf {login : Option Login} {markets : List String} {market : String} :
    .subscribe market ∈ queueOf login markets ↔ market ∈ markets := by
  cases login <;> simp [queueOf]

theorem queueOf_concat (login : Option Login) (markets : List String) (market : String) :
    queueOf login markets ++ [.subscribe market] = queueOf login (markets ++ [market]) := by
  rw [queueOf, queueOf, List.map_append, List.append_assoc]
  rfl

theorem queueOf_remove (login : Option Login) (markets : List String) (market : String) :
    (queueOf login markets).filter (· ≠ .subscribe market) =
      queueOf login (markets.filter (· ≠ market)) := by
  rw [queueOf, queueOf, List.filter_append, List.filter_map]
  cases login <;> simp [Function.comp_def]

theorem queueOf_subscriptions (login : Option Login) (markets : List String) :
    (queueOf login markets).filter (!·.isLogin) = queueOf none markets := by
  rw [queueOf, queueOf, List.filter_append, List.filter_map]
  cases login <;> simp [Function.comp_def, Frame.isLogin]

/-! ## Every moment of a run -/

structure Orderly (config : Config) (moves : List (Move σ)) (m : Moment σ) : Prop where
  config : m.stream.config = config
  publicOnly : m.stream.publicOnly = madePublic moves
  attempted : m.stream.attempted = moves.any Move.isConnect
  untried : m.stream.attempted = false →
    m.stream.state = .disconnected ∧ m.stream.link = .absent ∧ m.log = []
  queue : ∃ login, m.stream.queue = queueOf login (wanted moves) ∧
    (m.stream.publicOnly = true ∨ m.stream.attempted = false → login = none)
  unsent : m.stream.publicOnly = true → ∀ login, .send (.frame (.login login)) ∉ m.log

section Step

variable {config : Config} {moves : List (Move σ)} {m m' : Moment σ} {move : Move σ}

theorem orderly_start (config : Config) (sink : Broadcast) (world : σ) :
    Orderly config [] (.start config sink world) :=
  ⟨rfl, rfl, rfl, fun _ => ⟨rfl, rfl, rfl⟩, ⟨none, rfl, fun _ => rfl⟩, fun _ _ => nofun⟩

/-- A move that neither connects the stream nor makes it public. -/
theorem Orderly.settled (h : Orderly config moves m) (hpublish : move ≠ .publish)
    (hconnect : move.isConnect = false) (hsame : BookStream.SameSettings m.stream m'.stream)
    (hqueue : ∀ login, m.stream.queue = queueOf login (wanted moves) →
      m'.stream.queue = queueOf login (wanted (moves ++ [move])))
    (habsent : m.stream.link = .absent →
      m'.stream.state = m.stream.state ∧ m'.stream.link = .absent ∧ m'.log = m.log)
    (hlog : m'.log = m.log ∨
      ∃ e, m'.log = m.log ++ [e] ∧ ∀ login, e ≠ .send (.frame (.login login))) :
    Orderly config (moves ++ [move]) m' := by
  constructor
  case config => rw [hsame.config, h.config]
  case publicOnly => rw [hsame.publicOnly, h.publicOnly, madePublic_other moves hpublish]
  case attempted =>
    rw [hsame.attempted, h.attempted, List.any_append, List.any_cons, hconnect]
    simp
  case untried =>
    intro hnever
    rw [hsame.attempted] at hnever
    obtain ⟨hstate, hlink, hnothing⟩ := h.untried hnever
    obtain ⟨hstate', hlink', hlog'⟩ := habsent hlink
    exact ⟨hstate'.trans hstate, hlink', hlog'.trans hnothing⟩
  case queue =>
    obtain ⟨login, hlogin, hnone⟩ := h.queue
    refine ⟨login, hqueue login hlogin, ?_⟩
    rw [hsame.publicOnly, hsame.attempted]
    exact hnone
  case unsent =>
    intro hpublic login hmem
    rw [hsame.publicOnly] at hpublic
    rcases hlog with hlog | ⟨e, hlog, hother⟩
    · rw [hlog] at hmem
      exact h.unsent hpublic login hmem
    · rw [hlog] at hmem
      rcases List.mem_append.1 hmem with hmem | hmem
      · exact h.unsent hpublic login hmem
      · exact hother login (List.mem_singleton.1 hmem).symm

/-- A move that is neither, and does not touch the queue. -/
theorem Orderly.quiet (h : Orderly config moves m) (hpublish : move ≠ .publish)
    (hconnect : move.isConnect = false) (hwanted : move.wantedAfter (wanted moves) = wanted moves)
    (hquiet : BookStream.Quiet m.stream m'.stream)
    (habsent : m.stream.link = .absent →
      m'.stream.state = m.stream.state ∧ m'.stream.link = .absent ∧ m'.log = m.log)
    (hlog : m'.log = m.log ∨
      ∃ e, m'.log = m.log ++ [e] ∧ ∀ login, e ≠ .send (.frame (.login login))) :
    Orderly config (moves ++ [move]) m' := by
  refine h.settled hpublish hconnect hquiet.toSameSettings ?_ habsent hlog
  intro login hqueue
  rw [hquiet.queue, hqueue, wanted_concat, hwanted]

theorem Orderly.publish (h : Orderly config moves m) (wire : StreamWire σ) :
    Orderly config (moves ++ [.publish]) (m.after wire .publish) := by
  show Orderly config _ ⟨m.stream.setPublicOnly, m.world, m.log⟩
  have hattempted : (moves ++ [Move.publish]).any Move.isConnect = moves.any Move.isConnect := by
    simp [Move.isConnect]
  have hwanted : wanted (moves ++ [.publish]) = wanted moves := wanted_concat moves .publish
  unfold BookStream.setPublicOnly
  split
  · next htried =>
      refine ⟨h.config, ?_, h.attempted.trans hattempted.symm, h.untried, hwanted ▸ h.queue,
        h.unsent⟩
      rw [h.publicOnly, madePublic_publish, ← h.attempted, htried]
      simp
  · next hnever =>
      have hnever : m.stream.attempted = false := by simpa using hnever
      obtain ⟨hstate, hlink, hnothing⟩ := h.untried hnever
      obtain ⟨login, hqueue, hnone⟩ := h.queue
      refine ⟨h.config, ?_, h.attempted.trans hattempted.symm, h.untried,
        ⟨login, hwanted ▸ hqueue, fun _ => hnone (Or.inr hnever)⟩, ?_⟩
      · rw [madePublic_publish, ← h.attempted, hnever]
        simp
      · intro _ login hmem
        rw [hnothing] at hmem
        cases hmem

theorem queueAt_ok {b : BookStream} {now : Timestamp} {queue : List Frame} {login : Option Login}
    {markets : List String} (h : b.queueAt now = .ok queue)
    (hqueue : b.queue = queueOf login markets) :
    (b.publicOnly = true ∧ queue = queueOf none markets) ∨
      ∃ key secret, b.publicOnly = false ∧ b.config.credentials? = some (key, secret) ∧
        queue = queueOf (some ⟨key, Crypto.sign secret (loginPayload now.milliseconds),
          now.milliseconds, b.config.subaccount⟩) markets := by
  unfold BookStream.queueAt at h
  rw [hqueue, queueOf_subscriptions] at h
  dsimp only at h
  split at h
  · next hpublic =>
      cases h
      exact Or.inl ⟨hpublic, rfl⟩
  · next hprivate =>
      split at h
      · next key secret hcredentials =>
          cases h
          exact Or.inr ⟨key, secret, by simpa using hprivate, hcredentials, rfl⟩
      · cases h

theorem not_login_of_public {url : String} {markets : List String} {made : List Emission}
    (h : made <+: .dial url :: (queueOf none markets).map (.send ∘ .frame)) (login : Login) :
    .send (.frame (.login login)) ∉ made := by
  intro hmem
  have hmem := h.subset hmem
  simp [queueOf] at hmem

theorem Orderly.connect (h : Orderly config moves m) (wire : StreamWire σ) :
    Orderly config (moves ++ [.connect]) (m.after wire .connect) := by
  have hattempted : (moves ++ [Move.connect]).any Move.isConnect = true := by
    simp [Move.isConnect]
  have hwanted : wanted (moves ++ [.connect]) = wanted moves := wanted_concat moves .connect
  have hpublic : madePublic (moves ++ [.connect]) = madePublic moves :=
    madePublic_other moves nofun
  obtain ⟨login, hqueue, hnone⟩ := h.queue
  show Orderly config _ (Moment.ofParts (m.stream.connect wire.recorded (m.world, m.log)).2)
  have hend := BookStream.connect_end wire.recorded m.stream (m.world, m.log)
  generalize m.stream.connect wire.recorded (m.world, m.log) = ended at hend ⊢
  obtain ⟨result, b, s, log⟩ := ended
  -- what the two ends that dialled have in common
  have hdialled {queue : List Frame} (hat : m.stream.queueAt (wire.now m.world) = .ok queue)
      (hlog : log = (BookStream.establish wire.recorded m.stream.config.wsUrl queue
        (m.world, m.log)).2.2) (state : StreamState) (link : Link) (sink : Broadcast) :
      Orderly config (moves ++ [.connect])
        ⟨{ m.stream with attempted := true, queue, state, link, sink }, s, log⟩ := by
    obtain ⟨made, hmade, hout, -⟩ :=
      BookStream.establish_log wire m.stream.config.wsUrl queue m.world m.log
    rcases queueAt_ok hat hqueue with ⟨hpub, rfl⟩ | ⟨key, secret, hprivate, -, rfl⟩
    · refine ⟨h.config, h.publicOnly.trans hpublic.symm, hattempted.symm, nofun,
        ⟨none, by rw [hwanted], fun _ => rfl⟩, ?_⟩
      intro _ login' hmem
      rw [hlog, hout] at hmem
      rcases List.mem_append.1 hmem with hmem | hmem
      · exact h.unsent hpub login' hmem
      · exact not_login_of_public hmade login' hmem
    · refine ⟨h.config, h.publicOnly.trans hpublic.symm, hattempted.symm, nofun,
        ⟨_, by rw [hwanted], fun hsilent => ?_⟩, fun hpub => ?_⟩
      · rcases hsilent with hpub | hnever
        · rw [hprivate] at hpub
          cases hpub
        · cases hnever
      · rw [hprivate] at hpub
        cases hpub
  cases hend with
  | refused hbusy =>
      have htried : m.stream.attempted = true := by
        by_contra hnever
        have hstate := (h.untried (by simpa using hnever)).1
        rw [hstate] at hbusy
        simp at hbusy
      exact ⟨h.config, h.publicOnly.trans hpublic.symm, htried.trans hattempted.symm, h.untried,
        ⟨login, hwanted ▸ hqueue, hnone⟩, h.unsent⟩
  | unsigned _ hprivate _ =>
      refine ⟨h.config, h.publicOnly.trans hpublic.symm, hattempted.symm, nofun,
        ⟨none, ?_, fun _ => rfl⟩, h.unsent⟩
      show m.stream.queue.filter _ = _
      rw [hqueue, queueOf_subscriptions, hwanted]
  | failed _ hat hfailed => exact hdialled hat (by rw [hfailed]) _ _ _
  | up _ hat hup => exact hdialled hat (by rw [hup]) _ _ _

/-- A move that changes the queue and says so on the connection. -/
theorem Orderly.requeued (h : Orderly config moves m) (wire : StreamWire σ) {queue : List Frame}
    {frame : Frame} (hframe : frame.isLogin = false) (hpublish : move ≠ .publish)
    (hconnect : move.isConnect = false)
    (hqueue : ∀ login, m.stream.queue = queueOf login (wanted moves) →
      queue = queueOf login (wanted (moves ++ [move]))) :
    Orderly config (moves ++ [move])
      (.ofParts (BookStream.sendNow wire.recorded frame { m.stream with queue }
        (m.world, m.log)).2) := by
  generalize hb : { m.stream with queue } = b
  have hquiet := BookStream.sendNow_quiet wire.recorded frame b (m.world, m.log)
  subst hb
  refine h.settled hpublish hconnect ⟨hquiet.config, hquiet.publicOnly, hquiet.attempted⟩
    (fun login hold => hquiet.queue.trans (hqueue login hold)) (fun hlink => ?_)
    ((BookStream.sendNow_log wire frame _ m.world m.log).imp_right
      fun hlog => ⟨_, hlog, fun login heq => ?_⟩)
  · have hlink' : { m.stream with queue }.link = .absent := hlink
    rw [BookStream.sendNow_absent _ _ _ hlink']
    exact ⟨rfl, hlink, rfl⟩
  · obtain rfl : frame = .login login := by simpa using heq
    cases hframe

theorem Orderly.subscribe (h : Orderly config moves m) (wire : StreamWire σ) (channel : Channel)
    (symbol : String) (options : SubscribeOptions) :
    Orderly config (moves ++ [.subscribe channel symbol options])
      (m.after wire (.subscribe channel symbol options)) := by
  show Orderly config _
    (.ofParts (m.stream.subscribe wire.recorded channel symbol options (m.world, m.log)).2)
  by_cases hchannel : channel = .book
  · subst hchannel
    rw [BookStream.subscribe_book]
    split
    · next hcontains =>
        refine h.settled nofun rfl ⟨rfl, rfl, rfl⟩ (fun login hqueue => ?_)
          (fun hlink => ⟨rfl, hlink, rfl⟩) (Or.inl rfl)
        rw [hqueue, List.contains_iff_mem, mem_queueOf] at hcontains
        show m.stream.queue = _
        rw [wanted_concat, Move.wantedAfter, if_pos hcontains, hqueue]
    · next hnew =>
        refine h.requeued wire rfl nofun rfl fun login hqueue => ?_
        rw [hqueue, List.contains_iff_mem, mem_queueOf] at hnew
        rw [wanted_concat, Move.wantedAfter, if_neg hnew, ← queueOf_concat, ← hqueue]
  · rw [BookStream.subscribe_other _ hchannel]
    exact h.quiet nofun rfl (wantedAfter_subscribe_other hchannel _ _ _) ⟨⟨rfl, rfl, rfl⟩, rfl⟩
      (fun hlink => ⟨rfl, hlink, rfl⟩) (Or.inl rfl)

theorem Orderly.unsubscribe (h : Orderly config moves m) (wire : StreamWire σ) (channel : Channel)
    (symbol : String) :
    Orderly config (moves ++ [.unsubscribe channel symbol])
      (m.after wire (.unsubscribe channel symbol)) := by
  show Orderly config _
    (.ofParts (m.stream.unsubscribe wire.recorded channel symbol (m.world, m.log)).2)
  by_cases hchannel : channel = .book
  · subst hchannel
    rw [BookStream.unsubscribe_book]
    split
    · refine h.requeued wire rfl nofun rfl fun login hqueue => ?_
      rw [wanted_concat, Move.wantedAfter, ← queueOf_remove, ← hqueue]
    · next hnone =>
        refine h.settled nofun rfl ⟨rfl, rfl, rfl⟩ (fun login hqueue => ?_)
          (fun hlink => ⟨rfl, hlink, rfl⟩) (Or.inl rfl)
        rw [hqueue, List.contains_iff_mem, mem_queueOf] at hnone
        show m.stream.queue = _
        rw [wanted_concat, Move.wantedAfter, hqueue, List.filter_eq_self.2]
        intro market hmarket
        simpa using fun heq : market = normalizeSymbol symbol => hnone (heq ▸ hmarket)
  · rw [BookStream.unsubscribe_other _ hchannel]
    exact h.quiet nofun rfl (wantedAfter_unsubscribe_other hchannel _ _) ⟨⟨rfl, rfl, rfl⟩, rfl⟩
      (fun hlink => ⟨rfl, hlink, rfl⟩) (Or.inl rfl)

theorem Orderly.close (h : Orderly config moves m) (wire : StreamWire σ) :
    Orderly config (moves ++ [.close]) (m.after wire .close) := by
  show Orderly config _ (.ofParts (m.stream.close wire.recorded (m.world, m.log)))
  refine h.quiet nofun rfl rfl (BookStream.close_quiet wire.recorded m.stream (m.world, m.log))
    (fun hlink => ?_)
    ((BookStream.close_log wire m.stream m.world m.log).imp_right fun hlog => ⟨_, hlog, by simp⟩)
  rw [BookStream.close_absent _ _ hlink]
  exact ⟨rfl, hlink, rfl⟩

theorem Orderly.receive (h : Orderly config moves m) (wire : StreamWire σ) (incoming : Incoming) :
    Orderly config (moves ++ [.receive incoming]) (m.after wire (.receive incoming)) := by
  show Orderly config _ (.ofParts (m.stream.receive wire.recorded incoming (m.world, m.log)))
  refine h.quiet nofun rfl rfl
    (BookStream.receive_quiet wire.recorded incoming m.stream (m.world, m.log))
    (fun hlink => ?_)
    ((BookStream.receive_log wire incoming m.stream m.world m.log).imp_right
      fun ⟨payload, hlog⟩ => ⟨_, hlog, by simp⟩)
  rw [BookStream.receive_unread _ _ _ (by rw [hlink]; nofun)]
  exact ⟨rfl, hlink, rfl⟩

theorem Orderly.keepAlive (h : Orderly config moves m) (wire : StreamWire σ) :
    Orderly config (moves ++ [.keepAlive]) (m.after wire .keepAlive) := by
  show Orderly config _ (.ofParts (m.stream.keepAlive wire.recorded (m.world, m.log)))
  refine h.quiet nofun rfl rfl
    (BookStream.keepAlive_quiet wire.recorded m.stream (m.world, m.log))
    (fun hlink => ?_)
    ((BookStream.keepAlive_log wire m.stream m.world m.log).imp_right
      fun hlog => ⟨_, hlog, by simp⟩)
  rw [BookStream.keepAlive_unread _ _ (by rw [hlink]; nofun)]
  exact ⟨rfl, hlink, rfl⟩

theorem Orderly.pass (h : Orderly config moves m) (wire : StreamWire σ) (world : σ) :
    Orderly config (moves ++ [.pass world]) (m.after wire (.pass world)) :=
  h.quiet nofun rfl rfl ⟨⟨rfl, rfl, rfl⟩, rfl⟩ (fun hlink => ⟨rfl, hlink, rfl⟩) (Or.inl rfl)

theorem Orderly.after (h : Orderly config moves m) (wire : StreamWire σ) (move : Move σ) :
    Orderly config (moves ++ [move]) (m.after wire move) := by
  cases move with
  | publish => exact h.publish wire
  | connect => exact h.connect wire
  | subscribe channel symbol options => exact h.subscribe wire channel symbol options
  | unsubscribe channel symbol => exact h.unsubscribe wire channel symbol
  | close => exact h.close wire
  | receive incoming => exact h.receive wire incoming
  | keepAlive => exact h.keepAlive wire
  | pass world => exact h.pass wire world

theorem orderly_run (wire : StreamWire σ) (config : Config) (sink : Broadcast) (world : σ)
    (moves : List (Move σ)) :
    Orderly config moves (.run wire (.start config sink world) moves) :=
  Moment.run_induction (orderly_start config sink world)
    (fun _ _ move h => h.after wire move) moves

theorem Orderly.connected (h : Orderly config moves m) (hprivate : madePublic moves = false)
    (wire : StreamWire σ) (hconnect : m.connect wire = (.ok (), m')) :
    ∃ key secret, config.credentials? = some (key, secret) ∧
      let now := (wire.now m.world).milliseconds
      let login := ⟨key, Crypto.sign secret (loginPayload now), now, config.subaccount⟩
      let said := Frame.login login :: (wanted moves).map .subscribe
      m'.log = m.log ++ .dial config.wsUrl :: said.map (.send ∘ .frame) ∧
        m'.stream.queue = said ∧ m'.stream.link = .live said := by
  obtain ⟨login, hqueue, -⟩ := h.queue
  have hpublic : m.stream.publicOnly = false := h.publicOnly.trans hprivate
  have hend := Moment.connect_end wire m
  rw [hconnect] at hend
  generalize hstream : m'.stream = stream at hend ⊢
  generalize hworld : (m'.world, m'.log) = world at hend
  cases hend with
  | @up queue sent _ hidle hat hup =>
      obtain ⟨made, -, hout, hall⟩ :=
        BookStream.establish_log wire m.stream.config.wsUrl queue m.world m.log
      rw [hup] at hout hall
      obtain ⟨rfl, rfl⟩ := hall sent rfl
      rcases queueAt_ok hat hqueue with ⟨hpub, -⟩ | ⟨key, secret, -, hcredentials, hsaid⟩
      · rw [hpublic] at hpub
        cases hpub
      · rw [h.config] at hcredentials hsaid
        refine ⟨key, secret, hcredentials, ?_, hsaid, congrArg Link.live hsaid⟩
        have hlog : m'.log = world.2 := congrArg Prod.snd hworld
        rw [hlog, hout, h.config, hsaid]
        rfl

end Step

/-! ## The law of the queue -/

/-- At every moment of every run the queue is a login or none and then the markets subscribed, each
once, and an attempt to connect leaves these as they are. A stream made public in time has no
login in the queue and never sent one. Any other sends, with every connection that comes about, a
login signed at that time and then all subscriptions. -/
theorem queue_in_order (wire : StreamWire σ) (config : Config) (sink : Broadcast) (world : σ)
    (moves : List (Move σ)) :
    let m := Moment.run wire (.start config sink world) moves
    (∃ login : Option Login,
      m.stream.queue = (login.map Frame.login).toList ++ (wanted moves).map .subscribe ∧
      (madePublic moves = true → login = none)) ∧
    (wanted moves).Nodup ∧
    (m.connect wire).2.stream.queue.filter (!·.isLogin) = m.stream.queue.filter (!·.isLogin) ∧
    if madePublic moves then
      ∀ login, .send (.frame (.login login)) ∉ m.log
    else
      ∀ m', m.connect wire = (.ok (), m') →
        ∃ key secret, config.credentials? = some (key, secret) ∧
          let now := (wire.now m.world).milliseconds
          let login := ⟨key, Crypto.sign secret (loginPayload now), now, config.subaccount⟩
          let said := Frame.login login :: (wanted moves).map .subscribe
          m'.log = m.log ++ .dial config.wsUrl :: said.map (.send ∘ .frame) ∧
            m'.stream.queue = said ∧ m'.stream.link = .live said := by
  intro m
  have h : Orderly config moves m := orderly_run wire config sink world moves
  obtain ⟨login, hqueue, hnone⟩ := h.queue
  refine ⟨⟨login, hqueue, fun hpublic => hnone (Or.inl (h.publicOnly.trans hpublic))⟩,
    wanted_nodup moves, ?_, ?_⟩
  · obtain ⟨login', hqueue', -⟩ := (h.connect wire).queue
    rw [show wanted (moves ++ [.connect]) = wanted moves from wanted_concat moves .connect]
      at hqueue'
    show (m.after wire .connect).stream.queue.filter _ = _
    rw [hqueue', hqueue, queueOf_subscriptions, queueOf_subscriptions]
  · split
    · next hpublic => exact h.unsent (h.publicOnly.trans hpublic)
    · next hprivate =>
        intro m' hconnect
        exact h.connected (by simpa using hprivate) wire hconnect

/-- An exchange that takes everything. -/
def takesAll : StreamWire Unit :=
  ⟨fun _ s => (none, s), fun _ s => (none, s), fun s => (.due, s), fun _ => false, fun _ => .epoch⟩

example :
    let moves := [.subscribe .book "btc" ⟨none, none⟩, .connect, .publish,
      .subscribe .book "eth" ⟨none, none⟩, .unsubscribe .book "BTC", .receive .ended, .connect]
    let login : Emission := .send (.frame (.login
      ⟨"key", Crypto.sign "secret" (loginPayload 0), 0, none⟩))
    (Moment.run takesAll (.start (Config.default.withCredentials "key" "secret") .default ())
        moves).log =
      [.dial "wss://ftx.com/ws/", login, .send (.frame (.subscribe "BTC")),
        .send (.frame (.subscribe "ETH")), .send (.frame (.unsubscribe "BTC")),
        .dial "wss://ftx.com/ws/", login, .send (.frame (.subscribe "ETH"))] := by
  rfl

end Tradebook.Ftx
