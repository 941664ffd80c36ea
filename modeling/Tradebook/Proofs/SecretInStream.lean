import Tradebook.Proofs.SecretInRequests
import Tradebook.Proofs.StreamRun

/-!
# Streams under two secrets

Two streams whose settings differ in the secret alone are `Twins` when nothing else but the
signatures of the logins tells them apart. Whatever is done to both of them with the same outcome
behind the wire leaves them twins, and has the same result: an operation looks at no signature, as
it asks of a frame only whether it is a login or a certain subscription.

As for requests the worlds are related by any relation that the wire keeps. `Together` is this
relation for a stream with its world.
-/

namespace Tradebook.Ftx

/-! ## What there is but for signatures -/

namespace Frame

/-- A frame without its signature. -/
def unsigned : Frame → Frame
  | login l => login { l with sign := "" }
  | frame => frame

@[simp]
theorem isLogin_unsigned (f : Frame) : f.unsigned.isLogin = f.isLogin := by
  cases f <;> rfl

theorem unsigned_eq_subscribe {f : Frame} {market : String} :
    f.unsigned = subscribe market ↔ f = subscribe market := by
  cases f <;> simp [unsigned]

variable {queue queue' : List Frame}

/-- What is kept of a queue by a look at something else than signatures. -/
theorem filter_unsigned {p : Frame → Bool} (hp : ∀ f, p f.unsigned = p f)
    (h : queue.map unsigned = queue'.map unsigned) :
    (queue.filter p).map unsigned = (queue'.filter p).map unsigned := by
  have hmap (frames : List Frame) :
      (frames.filter p).map unsigned = (frames.map unsigned).filter p := by
    rw [List.filter_map, show p ∘ unsigned = p from funext hp]
  rw [hmap, hmap, h]

theorem contains_unsigned (market : String) (h : queue.map unsigned = queue'.map unsigned) :
    queue.contains (subscribe market) = queue'.contains (subscribe market) := by
  have hmem (frames : List Frame) :
      subscribe market ∈ frames ↔ subscribe market ∈ frames.map unsigned := by
    simp [List.mem_map, unsigned_eq_subscribe]
  rw [Bool.eq_iff_iff, List.contains_iff_mem, List.contains_iff_mem, hmem, h, ← hmem]

end Frame

/-- What goes out, without a signature. -/
def Outgoing.unsigned : Outgoing → Outgoing
  | frame f => frame f.unsigned
  | outgoing => outgoing

/-- What goes out, without a signature. -/
def Emission.unsigned : Emission → Emission
  | dial url => dial url
  | send outgoing => send outgoing.unsigned

/-- Two connections on which the same was sent but for signatures. -/
inductive Link.Twins : Link → Link → Prop
  | absent : Twins .absent .absent
  | live {sent sent' : List Frame} (h : sent.map Frame.unsigned = sent'.map Frame.unsigned) :
      Twins (.live sent) (.live sent')
  | stale {sent sent' : List Frame} (h : sent.map Frame.unsigned = sent'.map Frame.unsigned) :
      Twins (.stale sent) (.stale sent')

theorem Link.Twins.isHeld {link link' : Link} (h : link.Twins link') :
    link.isHeld = link'.isHeld := by
  cases h <;> rfl

/-- Nobody reads either of the connections, or both are there. -/
theorem Link.Twins.unread_or_live {link link' : Link} (h : link.Twins link') :
    ((∀ sent, link ≠ .live sent) ∧ ∀ sent, link' ≠ .live sent) ∨
    ∃ sent sent', link = .live sent ∧ link' = .live sent' ∧
      sent.map Frame.unsigned = sent'.map Frame.unsigned := by
  cases h with
  | absent => exact Or.inl ⟨nofun, nofun⟩
  | live h => exact Or.inr ⟨_, _, rfl, rfl, h⟩
  | stale h => exact Or.inl ⟨nofun, nofun⟩

/-- Two streams that are the same but for the secret and what was signed with it. -/
structure BookStream.Twins (c : Config) (secret secret' : String) (b b' : BookStream) : Prop where
  config : b.config = c.keeping secret
  otherConfig : b'.config = c.keeping secret'
  publicOnly : b.publicOnly = b'.publicOnly
  attempted : b.attempted = b'.attempted
  state : b.state = b'.state
  queue : b.queue.map Frame.unsigned = b'.queue.map Frame.unsigned
  link : b.link.Twins b'.link
  sink : b.sink = b'.sink

namespace StreamWire

variable {σ τ : Type}

/-- Signatures make no difference to what lies behind the wire. -/
def Blind (wire : StreamWire σ) : Prop :=
  ∀ o o' s, o.unsigned = o'.unsigned → wire.send o s = wire.send o' s

/-- Two wires on which the same happens, whatever the signatures, and that keep the worlds
related. -/
structure Alike (R : σ → τ → Prop) (wire : StreamWire σ) (wire' : StreamWire τ) : Prop where
  dial : ∀ url {s t}, R s t → Agree R (wire.dial url s) (wire'.dial url t)
  send : ∀ o o' {s t}, o.unsigned = o'.unsigned → R s t →
    Agree R (wire.send o s) (wire'.send o' t)
  next : ∀ {s t}, R s t → Agree R (wire.next s) (wire'.next t)
  stopped : ∀ {s t}, R s t → wire.stopped s = wire'.stopped t
  now : ∀ {s t}, R s t → wire.now s = wire'.now t

/-- What is written down of two streams is the same but for the signatures. -/
theorem Blind.recorded {wire : StreamWire σ} (h : wire.Blind) :
    Alike (SameUpTo Emission.unsigned) wire.recorded wire.recorded where
  dial := by
    rintro url ⟨s, log⟩ ⟨t, log'⟩ ⟨hworld, hlog⟩
    obtain rfl : s = t := hworld
    exact ⟨rfl, rfl, map_concat_congr hlog rfl⟩
  send := by
    rintro o o' ⟨s, log⟩ ⟨t, log'⟩ ho ⟨hworld, hlog⟩
    obtain rfl : s = t := hworld
    have hanswer : wire.send o s = wire.send o' s := h o o' s ho
    refine ⟨?_, ?_, map_concat_congr hlog (congrArg Emission.send ho)⟩
    · exact congrArg (fun ended => ended.1) hanswer
    · exact congrArg (fun ended => ended.2) hanswer
  next := by
    rintro ⟨s, log⟩ ⟨t, log'⟩ ⟨hworld, hlog⟩
    obtain rfl : s = t := hworld
    exact ⟨rfl, rfl, hlog⟩
  stopped hst := congrArg wire.stopped hst.world
  now hst := congrArg wire.now hst.world

end StreamWire

namespace BookStream

variable {σ τ : Type}

/-- Twins in related worlds. -/
structure Together (c : Config) (secret secret' : String) (R : σ → τ → Prop)
    (p : BookStream × σ) (p' : BookStream × τ) : Prop where
  twins : p.1.Twins c secret secret' p'.1
  world : R p.2 p'.2

variable {c : Config} {secret secret' : String} {R : σ → τ → Prop} {wire : StreamWire σ}
  {wire' : StreamWire τ} {b b' : BookStream} {s : σ} {t : τ}

/-! ## Sending -/

theorem sendNow_unconnected (wire : StreamWire σ) (frame : Frame)
    (h : b.state ≠ .connected ∨ ∀ sent, b.link ≠ .live sent) :
    sendNow wire frame b s = (.ok (), b, s) := by
  unfold sendNow
  split
  · next sent hstate hlink =>
      rcases h with h | h
      · exact absurd hstate h
      · exact absurd hlink (h sent)
  · rfl

/-- The same frame is sent on both connections or on none, and with the same success. -/
theorem sendNow_twins (hwire : wire.Alike R wire') (frame : Frame)
    (h : Twins c secret secret' b b') (hst : R s t) :
    Agree (Together c secret secret' R) (sendNow wire frame b s) (sendNow wire' frame b' t) := by
  have hidle (hb : b.state ≠ .connected ∨ ∀ sent, b.link ≠ .live sent)
      (hb' : b'.state ≠ .connected ∨ ∀ sent, b'.link ≠ .live sent) :
      Agree (Together c secret secret' R) (sendNow wire frame b s)
        (sendNow wire' frame b' t) := by
    rw [sendNow_unconnected wire frame hb, sendNow_unconnected wire' frame hb']
    exact ⟨rfl, h, hst⟩
  by_cases hstate : b.state = .connected
  · have hstate' : b'.state = .connected := h.state ▸ hstate
    rcases h.link.unread_or_live with ⟨hunread, hunread'⟩ | ⟨sent, sent', hlink, hlink', hsent⟩
    · exact hidle (Or.inr hunread) (Or.inr hunread')
    · obtain ⟨failure, s₁, t₁, hs, ht, hworld⟩ :=
        (hwire.send (.frame frame) (.frame frame) rfl hst).exists_eq
      unfold sendNow
      rw [hstate, hlink, hstate', hlink']
      dsimp only
      rw [hs, ht]
      cases failure with
      | none =>
          have hmore := map_concat_congr hsent (Eq.refl frame.unsigned)
          exact ⟨rfl, { h with state := rfl, link := .live hmore }, hworld⟩
      | some detail => exact ⟨rfl, h, hworld⟩
  · exact hidle (Or.inl hstate) (Or.inl (h.state ▸ hstate))

/-- How it ends to send a queue: with the same error, or when it was sent. -/
inductive SendEnds (R : σ → τ → Prop) :
    Except StreamError (List Frame) × σ → Except StreamError (List Frame) × τ → Prop
  | failed (cause : StreamError) {s : σ} {t : τ} (hst : R s t) :
      SendEnds R (.error cause, s) (.error cause, t)
  | sent {sent sent' : List Frame} {s : σ} {t : τ}
      (hsent : sent.map Frame.unsigned = sent'.map Frame.unsigned) (hst : R s t) :
      SendEnds R (.ok sent, s) (.ok sent', t)

theorem sendAll_twins (hwire : wire.Alike R wire') {sent sent' queue queue' : List Frame}
    (hsent : sent.map Frame.unsigned = sent'.map Frame.unsigned)
    (hqueue : queue.map Frame.unsigned = queue'.map Frame.unsigned) (hst : R s t) :
    SendEnds R (sendAll wire sent queue s) (sendAll wire' sent' queue' t) := by
  induction queue generalizing sent sent' queue' s t with
  | nil =>
      obtain rfl : queue' = [] := List.map_eq_nil_iff.1 hqueue.symm
      exact .sent hsent hst
  | cons frame queue ih =>
      obtain ⟨frame', queue', rfl, hframe, hrest⟩ := List.map_eq_cons_iff.1 hqueue.symm
      obtain ⟨failure, s₁, t₁, hs, ht, hworld⟩ :=
        (hwire.send (.frame frame) (.frame frame')
          (congrArg Outgoing.frame hframe.symm) hst).exists_eq
      rw [sendAll, sendAll, hs, ht]
      dsimp only
      rw [hwire.stopped hworld]
      split
      · exact .failed .cancelled hworld
      · cases failure with
        | none => exact ih (map_concat_congr hsent hframe.symm) hrest.symm hworld
        | some detail => exact .failed _ hworld

theorem establish_twins (hwire : wire.Alike R wire') (url : String) {queue queue' : List Frame}
    (hqueue : queue.map Frame.unsigned = queue'.map Frame.unsigned) (hst : R s t) :
    SendEnds R (establish wire url queue s) (establish wire' url queue' t) := by
  unfold establish
  rw [hwire.stopped hst]
  split
  · exact .failed .cancelled hst
  · obtain ⟨failure, s₁, t₁, hs, ht, hworld⟩ := (hwire.dial url hst).exists_eq
    rw [hs, ht]
    dsimp only
    rw [hwire.stopped hworld]
    split
    · exact .failed .cancelled hworld
    · cases failure with
      | none => exact sendAll_twins hwire rfl hqueue hworld
      | some detail => exact .failed _ hworld

/-! ## Connecting -/

/-- Neither of the streams can log in, or both have the same to say but for the signature. -/
theorem queueAt_twins (h : Twins c secret secret' b b') (now : Timestamp) :
    (∃ cause, b.queueAt now = .error cause ∧ b'.queueAt now = .error cause) ∨
    ∃ queue queue', b.queueAt now = .ok queue ∧ b'.queueAt now = .ok queue' ∧
      queue.map Frame.unsigned = queue'.map Frame.unsigned := by
  have hqueue := Frame.filter_unsigned (p := (!·.isLogin)) (by simp) h.queue
  unfold queueAt
  dsimp only
  rw [← h.publicOnly, h.config, h.otherConfig, Config.credentials_keeping,
    Config.credentials_keeping]
  split
  · exact Or.inr ⟨_, _, rfl, rfl, hqueue⟩
  · cases c.apiKey with
    | none => exact Or.inl ⟨_, rfl, rfl⟩
    | some key =>
        refine Or.inr ⟨_, _, rfl, rfl, ?_⟩
        rw [List.map_cons, List.map_cons, hqueue]
        rfl

theorem connect_twins (hwire : wire.Alike R wire') (h : Twins c secret secret' b b')
    (hst : R s t) :
    Agree (Together c secret secret' R) (b.connect wire s) (b'.connect wire' t) := by
  have hrefused (state : StreamState) (hs : b.connect wire s = (.error (.invalidState state), b, s))
      (ht : b'.connect wire' t = (.error (.invalidState state), b', t)) :
      Agree (Together c secret secret' R) (b.connect wire s) (b'.connect wire' t) := by
    rw [hs, ht]
    exact ⟨rfl, h, hst⟩
  have htried (hidle : b.state = .disconnected ∨ b.state = .failed) :
      Agree (Together c secret secret' R) (b.connect wire s) (b'.connect wire' t) := by
    rw [connect_idle wire b s hidle, connect_idle wire' b' t (h.state ▸ hidle), hwire.now hst]
    rcases queueAt_twins h (wire'.now t) with
      ⟨cause, hb, hb'⟩ | ⟨queue, queue', hb, hb', hqueue⟩
    · rw [hb, hb']
      have hkept := Frame.filter_unsigned (p := (!·.isLogin)) (by simp) h.queue
      exact ⟨rfl, { h with attempted := rfl, queue := hkept }, hst⟩
    · rw [hb, hb']
      dsimp only
      have hurl : b'.config.wsUrl = b.config.wsUrl := by
        rw [h.config, h.otherConfig]
        rfl
      rw [hurl]
      have hends := establish_twins hwire b.config.wsUrl hqueue hst
      generalize establish wire b.config.wsUrl queue s = ended at hends
      generalize establish wire' b.config.wsUrl queue' t = ended' at hends
      cases hends with
      | failed cause hworld =>
          exact ⟨rfl, { h with attempted := rfl, queue := hqueue, state := rfl, link := .absent },
            hworld⟩
      | sent hsent hworld =>
          refine ⟨rfl, ?_, hworld⟩
          exact { h with attempted := rfl, queue := hqueue, state := rfl, link := .live hsent,
                         sink := congrArg (·.emit (.connected exchangeName)) h.sink }
  have hstate := h.state
  cases hb : b.state with
  | disconnected => exact htried (Or.inl hb)
  | failed => exact htried (Or.inr hb)
  | connecting | connected | closed =>
      rw [hb] at hstate
      exact hrefused _ (by rw [connect, hb]) (by rw [connect, ← hstate])

/-! ## Subscriptions -/

theorem subscribe_twins (hwire : wire.Alike R wire') (channel : Channel) (symbol : String)
    (options : SubscribeOptions) (h : Twins c secret secret' b b') (hst : R s t) :
    Agree (Together c secret secret' R) (b.subscribe wire channel symbol options s)
      (b'.subscribe wire' channel symbol options t) := by
  by_cases hchannel : channel = .book
  · rw [hchannel, subscribe_book, subscribe_book, Frame.contains_unsigned _ h.queue]
    split
    · exact ⟨rfl, h, hst⟩
    · exact sendNow_twins hwire _ { h with queue := map_concat_congr h.queue rfl } hst
  · rw [subscribe_other wire hchannel, subscribe_other wire' hchannel]
    exact ⟨rfl, h, hst⟩

theorem unsubscribe_twins (hwire : wire.Alike R wire') (channel : Channel) (symbol : String)
    (h : Twins c secret secret' b b') (hst : R s t) :
    Agree (Together c secret secret' R) (b.unsubscribe wire channel symbol s)
      (b'.unsubscribe wire' channel symbol t) := by
  by_cases hchannel : channel = .book
  · rw [hchannel, unsubscribe_book, unsubscribe_book, Frame.contains_unsigned _ h.queue]
    split
    · refine sendNow_twins hwire _ { h with queue := ?_ } hst
      refine Frame.filter_unsigned (fun f => ?_) h.queue
      simp [Frame.unsigned_eq_subscribe]
    · exact ⟨rfl, h, hst⟩
  · rw [unsubscribe_other wire hchannel, unsubscribe_other wire' hchannel]
    exact ⟨rfl, h, hst⟩

/-! ## A connection and its end -/

theorem setPublicOnly_twins (h : Twins c secret secret' b b') :
    Twins c secret secret' b.setPublicOnly b'.setPublicOnly := by
  unfold setPublicOnly
  rw [← h.attempted]
  split
  · exact h
  · exact { h with publicOnly := rfl, attempted := rfl }

theorem emit_twins (event : StreamEvent) (h : Twins c secret secret' b b') :
    Twins c secret secret' (b.emit event) (b'.emit event) :=
  { h with sink := congrArg (·.emit event) h.sink }

theorem lose_twins {sent sent' : List Frame}
    (hsent : sent.map Frame.unsigned = sent'.map Frame.unsigned) (reason : String)
    (h : Twins c secret secret' b b') :
    Twins c secret secret' (b.lose sent reason) (b'.lose sent' reason) := by
  unfold lose
  dsimp only
  rw [← h.state]
  split
  · exact emit_twins _ { h with state := rfl, link := .stale hsent }
  · exact { h with state := rfl, link := .stale hsent }

theorem close_twins (hwire : wire.Alike R wire') (h : Twins c secret secret' b b')
    (hst : R s t) :
    Together c secret secret' R (b.close wire s) (b'.close wire' t) := by
  unfold close
  rw [h.link.isHeld]
  split
  · obtain ⟨failure, s₁, t₁, hs, ht, hworld⟩ :=
      (hwire.send .close .close rfl hst).exists_eq
    rw [hs, ht]
    exact ⟨emit_twins _ { h with state := rfl, link := .absent }, hworld⟩
  · exact ⟨h, hst⟩

theorem receive_twins (hwire : wire.Alike R wire') (incoming : Incoming)
    (h : Twins c secret secret' b b') (hst : R s t) :
    Together c secret secret' R (b.receive wire incoming s) (b'.receive wire' incoming t) := by
  rcases h.link.unread_or_live with ⟨hunread, hunread'⟩ | ⟨sent, sent', hlink, hlink', hsent⟩
  · rw [receive_unread wire incoming s hunread, receive_unread wire' incoming t hunread']
    exact ⟨h, hst⟩
  · unfold receive
    rw [hlink, hlink']
    cases incoming with
    | text payload => exact ⟨emit_twins _ h, hst⟩
    | binary payload => exact ⟨emit_twins _ h, hst⟩
    | ping payload =>
        obtain ⟨failure, s₁, t₁, hs, ht, hworld⟩ :=
          (hwire.send (.pong payload) (.pong payload) rfl hst).exists_eq
        dsimp only
        rw [hs, ht]
        cases failure with
        | none => exact ⟨h, hworld⟩
        | some detail => exact ⟨lose_twins hsent _ h, hworld⟩
    | pong => exact ⟨h, hst⟩
    | close reason => exact ⟨lose_twins hsent _ h, hst⟩
    | broken detail => exact ⟨lose_twins hsent _ h, hst⟩
    | ended => exact ⟨lose_twins hsent _ h, hst⟩

theorem keepAlive_twins (hwire : wire.Alike R wire') (h : Twins c secret secret' b b')
    (hst : R s t) :
    Together c secret secret' R (b.keepAlive wire s) (b'.keepAlive wire' t) := by
  rcases h.link.unread_or_live with ⟨hunread, hunread'⟩ | ⟨sent, sent', hlink, hlink', hsent⟩
  · rw [keepAlive_unread wire s hunread, keepAlive_unread wire' t hunread']
    exact ⟨h, hst⟩
  · obtain ⟨failure, s₁, t₁, hs, ht, hworld⟩ :=
      (hwire.send (.frame .ping) (.frame .ping) rfl hst).exists_eq
    unfold keepAlive
    rw [hlink, hlink']
    dsimp only
    rw [hs, ht]
    cases failure with
    | none =>
        have hmore := map_concat_congr hsent (Eq.refl (Frame.unsigned .ping))
        exact ⟨{ h with link := .live hmore }, hworld⟩
    | some detail => exact ⟨lose_twins hsent _ h, hworld⟩

theorem follow_twins (hwire : wire.Alike R wire') (steps : Nat)
    (h : Twins c secret secret' b b') (hst : R s t) :
    Agree (Together c secret secret' R) (follow wire steps b s) (follow wire' steps b' t) := by
  induction steps generalizing b b' s t with
  | zero => exact ⟨rfl, h, hst⟩
  | succ steps ih =>
      rw [follow, follow, ← h.state]
      split
      · exact ⟨rfl, close_twins hwire h hst⟩
      · obtain ⟨arrival, s₁, t₁, hs, ht, hworld⟩ := (hwire.next hst).exists_eq
        rw [hs, ht]
        cases arrival with
        | incoming incoming =>
            have hreceived := receive_twins hwire incoming h hworld
            exact ih hreceived.twins hreceived.world
        | due =>
            have halive := keepAlive_twins hwire h hworld
            exact ih halive.twins halive.world
        | stop => exact ⟨rfl, close_twins hwire h hworld⟩

end BookStream

end Tradebook.Ftx
