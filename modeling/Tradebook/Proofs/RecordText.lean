import Mathlib.Data.List.Nodup
import Tradebook.OrderRequest.Codec
import Tradebook.Proofs.DecimalText
import Tradebook.Proofs.JsonText
import Tradebook.Proofs.TimestampText
import Tradebook.Subscription.Codec

/-!
# Records are read back

For the text of a record to be read back two things are needed (`parse_bind_decode`). Its
value has to be one that the parser reads as it was printed, and the reader of the
record has to find its members in that value.

A record that was written has each member once, so the reader finds them all
(`fields?_record`), and the members are read back by what is known of texts, decimals
and instants. Where a record chooses between cases, the case is told by a name: as the
text itself, as the one member around the rest, or as the member `type` among the
others.

Two kinds of parts do not come back as they were, and each fails in its own way. A zero
with a sign is read without it, which changes the text of the record but not its value;
a leap second within a minute is read as the second behind it, which changes its value
but not the text (`RoundTripsUpTo`).
-/

namespace Tradebook

namespace Json

/-- A value that was written is the one value that its text is read as, and what is read is
written as the same text again. -/
def RoundTrips {α : Type} (encode : α → Json) (decode : Json → Option α) : Prop :=
  ∀ a, (parse (encode a).compact).bind decode = some a ∧
    ∀ b, (parse (encode a).compact).bind decode = some b →
      (encode b).compact = (encode a).compact

/-- How values are read back that have decimals and instants in them, which `map` reaches. Their
texts are always read. The value comes back, but for signs of zeros, just if no leap second is
within a minute; and what is read is written as the same text just if no zero has a sign. -/
structure RoundTripsUpTo {α : Type} (encode : α → Json) (decode : Json → Option α)
    (map : (Decimal → Decimal) → (Timestamp → Timestamp) → α → α) : Prop where
  read (a : α) :
    (parse (encode a).compact).bind decode = some (map Decimal.asRead Timestamp.asRead a)
  back (a : α) : (parse (encode a).compact).bind decode = some (map Decimal.asRead id a) ↔
    map id Timestamp.asRead a = a
  again (a b : α) (h : (parse (encode a).compact).bind decode = some b) :
    (encode b).compact = (encode a).compact ↔ map Decimal.asRead id a = a

/-- A value that is printed is read as its reader makes it out. -/
theorem parse_bind_decode {α : Type} {encode : α → Json} {decode : Json → Option α} {a b : α}
    (hwritten : Written (encode a)) (hdecode : decode (encode a) = some b) :
    (parse (encode a).compact).bind decode = some b := by
  rw [parse_compact hwritten, Option.bind_some, hdecode]

theorem roundTrips_of {α : Type} {encode : α → Json} {decode : Json → Option α}
    (hwritten : ∀ a, Written (encode a)) (hdecode : ∀ a, decode (encode a) = some a) :
    RoundTrips encode decode := by
  intro a
  have hback := parse_bind_decode (hwritten a) (hdecode a)
  refine ⟨hback, fun b hb => ?_⟩
  rw [hback] at hb
  rw [Option.some.inj hb]

/-- Values that print alike are alike. -/
theorem compact_inj {v w : Json} (hv : Written v) (hw : Written w) :
    v.compact = w.compact ↔ v = w := by
  refine ⟨fun h => ?_, congrArg compact⟩
  rw [← Option.some_inj, ← parse_compact hv, h, parse_compact hw]

theorem roundTripsUpTo_of {α : Type} {encode : α → Json} {decode : Json → Option α}
    {map : (Decimal → Decimal) → (Timestamp → Timestamp) → α → α}
    (hwritten : ∀ a, Written (encode a))
    (hdecode : ∀ a, decode (encode a) = some (map Decimal.asRead Timestamp.asRead a))
    (hback : ∀ a, map Decimal.asRead Timestamp.asRead a = map Decimal.asRead id a ↔
      map id Timestamp.asRead a = a)
    (hagain : ∀ a, encode (map Decimal.asRead Timestamp.asRead a) = encode a ↔
      map Decimal.asRead id a = a) :
    RoundTripsUpTo encode decode map where
  read a := parse_bind_decode (hwritten a) (hdecode a)
  back a := by
    rw [parse_bind_decode (hwritten a) (hdecode a), Option.some_inj]
    exact hback a
  again a b h := by
    rw [parse_bind_decode (hwritten a) (hdecode a)] at h
    rw [← Option.some.inj h, compact_inj (hwritten _) (hwritten a)]
    exact hagain a

/-! ## The parts of a record -/

@[simp] theorem written_text (s : String) : Written (text s) :=
  .string (some s)

@[simp] theorem written_natural (n : Nat) : Written (natural n) :=
  .number (by simp)

@[simp] theorem written_nullable {α : Type} {encode : α → Json} (h : ∀ a, Written (encode a))
    (a : Option α) : Written (nullable encode a) := by
  cases a with
  | none => exact .null
  | some a => exact h a

theorem written_record {members : List (String × Json)} (h : ∀ m ∈ members, Written m.2) :
    Written (record members) := by
  refine .object fun name value hmem => ?_
  obtain ⟨m, hm, heq⟩ := List.mem_map.1 hmem
  obtain ⟨-, rfl⟩ := Prod.mk.inj heq
  exact h m hm

@[simp] theorem asText?_text (s : String) : asText? (text s) = some s := rfl

@[simp] theorem required_some {α : Type} (decode : Json → Option α) (v : Json) :
    required decode (some v) = decode v := rfl

/-- A member that may be missing is null where it is, and nothing else is written as null. -/
theorem optional_nullable_map {α : Type} {encode : α → Json} {decode : Json → Option α}
    {read : α → α} (hdecode : ∀ a, decode (encode a) = some (read a))
    (hnull : ∀ a, encode a ≠ null) (a : Option α) :
    optional decode (some (nullable encode a)) = some (a.map read) := by
  cases a with
  | none => rfl
  | some a =>
      unfold nullable optional
      split
      · next heq => cases heq
      · next heq => exact absurd (Option.some.inj heq) (hnull a)
      · next heq =>
          rw [← Option.some.inj heq, hdecode, Option.map_some, Option.map_some]

theorem optional_nullable {α : Type} {encode : α → Json} {decode : Json → Option α}
    (hdecode : ∀ a, decode (encode a) = some a) (hnull : ∀ a, encode a ≠ null) (a : Option α) :
    optional decode (some (nullable encode a)) = some a := by
  simpa using optional_nullable_map hdecode hnull a

/-- Of the members of a record one has a name. -/
theorem filter_member {members : List (String × Json)} (h : (members.map Prod.fst).Nodup)
    {m : String × Json} (hm : m ∈ members) :
    (members.map fun (name, value) => (some name, value)).filter (·.1 == some m.1) =
      [(some m.1, m.2)] := by
  induction members with
  | nil => cases hm
  | cons first members ih =>
      rw [List.map_cons, List.nodup_cons] at h
      obtain ⟨hfirst, hrest⟩ := h
      rcases List.mem_cons.1 hm with rfl | hm
      · have hnone : (members.map fun (name, value) => (some name, value)).filter
            (·.1 == some m.1) = [] := by
          refine List.filter_eq_nil_iff.2 fun member hmem => ?_
          obtain ⟨other, hother, rfl⟩ := List.mem_map.1 hmem
          intro hsame
          have hname : other.1 = m.1 := by simpa using hsame
          exact hfirst (hname ▸ List.mem_map_of_mem hother)
        rw [List.map_cons, List.filter_cons_of_pos (by simp), hnone]
      · have hne : first.1 ≠ m.1 := by
          intro hsame
          exact hfirst (hsame ▸ List.mem_map_of_mem hm)
        rw [List.map_cons, List.filter_cons_of_neg (by simpa using hne), ih hrest hm]

theorem mapM_names {look : String → Option (Option Json)} {members : List (String × Json)}
    (h : ∀ m ∈ members, look m.1 = some (some m.2)) :
    (members.map Prod.fst).mapM look = some (members.map fun m => some m.2) := by
  induction members with
  | nil => rfl
  | cons m members ih =>
      rw [List.map_cons, List.mapM_cons, h m (by simp), ih fun m hm => h m (by simp [hm])]
      rfl

/-- A record has each of its members where they are looked for. -/
theorem fields?_record {members : List (String × Json)} {names : List String}
    (hnames : members.map Prod.fst = names) (h : names.Nodup) :
    (record members).fields? names = some (members.map fun m => some m.2) := by
  subst hnames
  unfold record fields?
  dsimp only
  rw [if_pos (by simp)]
  refine mapM_names fun m hm => ?_
  rw [filter_member h hm]

end Json

/-- The word for a case names no other. -/
theorem caseOfName?_text {α : Type} {name : α → String} {cases : List α}
    (h : (cases.map name).Nodup) {a : α} (ha : a ∈ cases) :
    caseOfName? name cases (.text (name a)) = some a := by
  show cases.find? (fun b => name b = name a) = some a
  cases hfound : cases.find? (fun b => name b = name a) with
  | none => simpa using List.find?_eq_none.1 hfound a ha
  | some b =>
      have hname : name b = name a := by simpa using List.find?_some hfound
      rw [List.inj_on_of_nodup_map h (List.mem_of_find?_eq_some hfound) ha hname]

/-! ## Members -/

section Members

open Json

@[simp] theorem Decimal.written_toJson (a : Decimal) : Written a.toJson :=
  written_text a.text

@[simp] theorem Timestamp.written_toJson (t : Timestamp) : Written t.toJson :=
  written_text t.text

@[simp] theorem asDecimal?_toJson (a : Decimal) : asDecimal? a.toJson = some a.asRead :=
  Decimal.ofText?_text a

@[simp] theorem asTimestamp?_toJson (t : Timestamp) : asTimestamp? t.toJson = some t.asRead :=
  Timestamp.ofText?_text t

@[simp] theorem Decimal.toJson_asRead_iff (a : Decimal) :
    a.asRead.toJson = a.toJson ↔ a.asRead = a := by
  rw [← Decimal.text_asRead_iff, Decimal.toJson, Decimal.toJson, Json.text, Json.text,
    Json.string.injEq, Option.some_inj]

@[simp] theorem Timestamp.toJson_asRead (t : Timestamp) : t.asRead.toJson = t.toJson := by
  rw [Timestamp.toJson, Timestamp.toJson, Timestamp.text_asRead]

theorem Decimal.toJson_map_asRead_iff (a : Option Decimal) :
    nullable Decimal.toJson (a.map Decimal.asRead) = nullable Decimal.toJson a ↔
      a.map Decimal.asRead = a := by
  cases a with
  | none => exact iff_of_true rfl rfl
  | some a =>
      rw [Option.map_some, nullable, nullable, Decimal.toJson_asRead_iff, Option.some_inj]

@[simp] theorem Side.ofJson?_toJson (s : Side) : Side.ofJson? s.toJson = some s :=
  caseOfName?_text (by decide) (by cases s <;> simp)

@[simp] theorem OrderType.ofJson?_toJson (t : OrderType) : OrderType.ofJson? t.toJson = some t :=
  caseOfName?_text (by decide) (by cases t <;> simp)

@[simp] theorem OrderStatus.ofJson?_toJson (s : OrderStatus) :
    OrderStatus.ofJson? s.toJson = some s :=
  caseOfName?_text (by decide) (by cases s <;> simp)

@[simp] theorem Channel.ofJson?_toJson (c : Channel) : Channel.ofJson? c.toJson = some c :=
  caseOfName?_text (by decide) (by cases c <;> simp)

@[simp] theorem Operation.ofJson?_toJson (o : Operation) : Operation.ofJson? o.toJson = some o :=
  caseOfName?_text (by decide) (by cases o <;> simp)

end Members

/-! ## Records -/

section Records

open Json

/-- The fill with its decimals and its instant changed. -/
def Trade.mapParts (decimal : Decimal → Decimal) (instant : Timestamp → Timestamp) (t : Trade) :
    Trade :=
  { t with
    price := decimal t.price
    quantity := decimal t.quantity
    fee := decimal t.fee
    tradedAt := instant t.tradedAt }

theorem Trade.written_toJson (t : Trade) : Written t.toJson :=
  written_record (by simp [Side.toJson, Written.bool])

theorem Trade.ofJson?_toJson (t : Trade) :
    Trade.ofJson? t.toJson = some (t.mapParts Decimal.asRead Timestamp.asRead) := by
  have horder : optional asText? (some (nullable text t.orderId)) = some t.orderId :=
    optional_nullable asText?_text (by simp [text]) t.orderId
  unfold Trade.ofJson? Trade.toJson
  rw [fields?_record, Option.bind_eq_bind, Option.bind_some]
  · simp only [List.map_cons, List.map_nil, required_some]
    rw [Side.ofJson?_toJson, asDecimal?_toJson, asDecimal?_toJson, asDecimal?_toJson, horder,
      asTimestamp?_toJson]
    rfl
  · rfl
  · decide

theorem Trade.roundTripsUpTo : RoundTripsUpTo toJson ofJson? mapParts := by
  refine roundTripsUpTo_of written_toJson ofJson?_toJson (fun t => ?_) fun t => ?_
  · cases t
    simp [mapParts]
  · cases t
    simp [mapParts, toJson, record]

/-- The order with its decimals and its instants changed. -/
def Order.mapParts (decimal : Decimal → Decimal) (instant : Timestamp → Timestamp) (o : Order) :
    Order :=
  { o with
    price := o.price.map decimal
    quantity := decimal o.quantity
    executedQuantity := decimal o.executedQuantity
    createdAt := instant o.createdAt
    updatedAt := instant o.updatedAt }

theorem Order.written_toJson (o : Order) : Written o.toJson :=
  written_record (by simp [Side.toJson, OrderType.toJson, OrderStatus.toJson])

theorem Order.ofJson?_toJson (o : Order) :
    Order.ofJson? o.toJson = some (o.mapParts Decimal.asRead Timestamp.asRead) := by
  have hclient : optional asText? (some (nullable text o.clientOrderId)) = some o.clientOrderId :=
    optional_nullable asText?_text (by simp [text]) o.clientOrderId
  have hprice : optional asDecimal? (some (nullable Decimal.toJson o.price)) =
      some (o.price.map Decimal.asRead) :=
    optional_nullable_map asDecimal?_toJson (by simp [Decimal.toJson, text]) o.price
  unfold Order.ofJson? Order.toJson
  rw [fields?_record, Option.bind_eq_bind, Option.bind_some]
  · simp only [List.map_cons, List.map_nil, required_some]
    rw [hclient, Side.ofJson?_toJson, OrderType.ofJson?_toJson, hprice, asDecimal?_toJson,
      asDecimal?_toJson, OrderStatus.ofJson?_toJson, asTimestamp?_toJson, asTimestamp?_toJson]
    rfl
  · rfl
  · decide

theorem Order.roundTripsUpTo : RoundTripsUpTo toJson ofJson? mapParts := by
  refine roundTripsUpTo_of written_toJson ofJson?_toJson (fun o => ?_) fun o => ?_
  · cases o
    simp [mapParts]
  · cases o
    simp [mapParts, toJson, record, Decimal.toJson_map_asRead_iff]

/-- The balance with its decimals changed. -/
def Balance.mapParts (decimal : Decimal → Decimal) (_ : Timestamp → Timestamp) (b : Balance) :
    Balance :=
  { b with available := decimal b.available, locked := decimal b.locked }

theorem Balance.written_toJson (b : Balance) : Written b.toJson :=
  written_record (by simp)

theorem Balance.ofJson?_toJson (b : Balance) :
    Balance.ofJson? b.toJson = some (b.mapParts Decimal.asRead Timestamp.asRead) := by
  unfold Balance.ofJson? Balance.toJson
  rw [fields?_record]
  · simp [mapParts]
  · rfl
  · decide

theorem Balance.roundTripsUpTo : RoundTripsUpTo toJson ofJson? mapParts := by
  refine roundTripsUpTo_of written_toJson ofJson?_toJson (fun b => ?_) fun b => ?_
  · cases b
    simp [mapParts]
  · cases b
    simp [mapParts, toJson, record]

theorem Market.written_toJson (m : Market) : Written m.toJson :=
  written_record (by simp)

theorem Market.ofJson?_toJson (m : Market) : Market.ofJson? m.toJson = some m := by
  unfold Market.ofJson? Market.toJson
  rw [fields?_record]
  · simp
  · rfl
  · decide

/-- The kind of order with its decimal changed. -/
def OrderKind.mapParts (decimal : Decimal → Decimal) (_ : Timestamp → Timestamp) :
    OrderKind → OrderKind
  | limit price => limit (decimal price)
  | market => market

theorem OrderKind.written_toJson (k : OrderKind) : Written k.toJson := by
  cases k <;> exact written_record (by simp)

/-- A kind of order is read back inside of so many other values. -/
theorem OrderKind.ofJsonWithin?_toJson (k : OrderKind) {outside : Nat} (h : outside < deepest) :
    OrderKind.ofJsonWithin? outside k.toJson =
      some (k.mapParts Decimal.asRead Timestamp.asRead) := by
  have hroom : 0 < deepest - outside := by omega
  have hsound : k.toJson.sound (deepest - outside) = true := by
    cases k <;> simp [OrderKind.toJson, record, Decimal.toJson, text, sound, soundMembers, hroom]
  unfold OrderKind.ofJsonWithin?
  rw [if_pos hsound]
  cases k with
  | limit price =>
      have hfields : (record [("price", price.toJson)]).fields? ["price"] =
          some [some price.toJson] := fields?_record rfl (by decide)
      show OrderKind.ofContent? "limit" (record [("price", price.toJson)]) = _
      unfold OrderKind.ofContent?
      rw [if_pos rfl, hfields]
      simp [mapParts]
  | market => rfl

/-- A kind is written as what is read of it just if no sign of a zero is lost. -/
theorem OrderKind.toJson_mapParts_iff (k : OrderKind) :
    (k.mapParts Decimal.asRead Timestamp.asRead).toJson = k.toJson ↔
      k.mapParts Decimal.asRead id = k := by
  cases k <;> simp [mapParts, toJson, record]

theorem OrderKind.mapParts_iff (k : OrderKind) :
    k.mapParts Decimal.asRead Timestamp.asRead = k.mapParts Decimal.asRead id ↔
      k.mapParts id Timestamp.asRead = k := by
  cases k <;> simp [mapParts]

theorem OrderKind.roundTripsUpTo : RoundTripsUpTo toJson ofJson? mapParts :=
  roundTripsUpTo_of written_toJson (fun k => ofJsonWithin?_toJson k (by decide)) mapParts_iff
    toJson_mapParts_iff

/-- The request with its decimals changed. -/
def OrderRequest.mapParts (decimal : Decimal → Decimal) (instant : Timestamp → Timestamp)
    (r : OrderRequest) : OrderRequest :=
  { r with kind := r.kind.mapParts decimal instant, quantity := decimal r.quantity }

theorem OrderRequest.written_toJson (r : OrderRequest) : Written r.toJson :=
  written_record (by simp [Side.toJson, OrderKind.written_toJson])

theorem OrderRequest.ofJson?_toJson (r : OrderRequest) :
    OrderRequest.ofJson? r.toJson = some (r.mapParts Decimal.asRead Timestamp.asRead) := by
  have hkind := OrderKind.ofJsonWithin?_toJson r.kind (show 1 < deepest by decide)
  unfold OrderRequest.ofJson? OrderRequest.toJson
  rw [fields?_record]
  · simp [hkind, mapParts]
  · rfl
  · decide

theorem OrderRequest.roundTripsUpTo : RoundTripsUpTo toJson ofJson? mapParts := by
  refine roundTripsUpTo_of written_toJson ofJson?_toJson (fun r => ?_) fun r => ?_
  · cases r
    simp [mapParts, OrderKind.mapParts_iff]
  · cases r
    simp [mapParts, toJson, record, OrderKind.toJson_mapParts_iff]

theorem CancelRequest.written_toJson (r : CancelRequest) : Written r.toJson := by
  cases r <;> exact written_record (by simp)

theorem CancelRequest.ofJson?_toJson (r : CancelRequest) :
    CancelRequest.ofJson? r.toJson = some r := by
  cases r <;> rfl

theorem asNatural?_natural {n bound : Nat} (h : n < bound)
    (hword : bound ≤ JsonNumber.wordBound) : asNatural? bound (natural n) = some n := by
  have hmeaning : JsonNumber.meaning? ⟨false, n, [], none⟩ = some (.natural n) := by
    unfold JsonNumber.meaning?
    rw [if_pos ⟨rfl, rfl, rfl, lt_of_lt_of_le h hword⟩]
  unfold asNatural? natural
  simp [hmeaning, h]

theorem SubscribeOptions.written_toJson (o : SubscribeOptions) : Written o.toJson :=
  written_record (by simp)

theorem SubscribeOptions.ofJson?_toJson (o : SubscribeOptions) :
    SubscribeOptions.ofJson? o.toJson = some o := by
  have hdepth : optional (asNatural? UInt32.size)
      (some (nullable (fun n : UInt32 => natural n.toNat) o.depth)) =
        some (o.depth.map UInt32.toNat) := by
    cases o.depth with
    | none => rfl
    | some n =>
        show (asNatural? UInt32.size (natural n.toNat)).map some = some (some n.toNat)
        rw [asNatural?_natural n.toNat_lt (by decide), Option.map_some]
  have hinterval : optional asText? (some (nullable text o.interval)) = some o.interval :=
    optional_nullable asText?_text (by simp [text]) o.interval
  unfold SubscribeOptions.ofJson? SubscribeOptions.toJson
  rw [fields?_record]
  · simp [hdepth, hinterval, Function.comp_def]
  · rfl
  · decide

theorem SubscriptionRequest.written_toJson (r : SubscriptionRequest) : Written r.toJson :=
  written_record (by simp [Operation.toJson, Channel.toJson])

theorem SubscriptionRequest.ofJson?_toJson (r : SubscriptionRequest) :
    SubscriptionRequest.ofJson? r.toJson = some r := by
  unfold SubscriptionRequest.ofJson? SubscriptionRequest.toJson
  rw [fields?_record]
  · simp
  · rfl
  · decide

theorem StreamEvent.written_toJson (e : StreamEvent) : Written e.toJson := by
  cases e <;> exact written_record (by simp [written_record])

theorem StreamEvent.texts?_record {second : String} (h : ["exchange", second].Nodup)
    (exchange other : String) :
    StreamEvent.texts? second (record [("exchange", text exchange), (second, text other)]) =
      some (exchange, other) := by
  have hfields : (record [("exchange", text exchange), (second, text other)]).fields?
      ["exchange", second] = some [some (text exchange), some (text other)] :=
    fields?_record rfl h
  unfold StreamEvent.texts?
  rw [hfields]
  rfl

theorem StreamEvent.ofJson?_toJson (e : StreamEvent) : StreamEvent.ofJson? e.toJson = some e := by
  cases e with
  | connected exchange =>
      have hcase : asCase? (StreamEvent.connected exchange).toJson =
          some ("Connected", record [("exchange", text exchange)]) := rfl
      have hfields : (record [("exchange", text exchange)]).fields? ["exchange"] =
          some [some (text exchange)] := fields?_record rfl (by decide)
      unfold StreamEvent.ofJson?
      rw [hcase, Option.bind_eq_bind, Option.bind_some]
      dsimp only
      rw [if_pos rfl, hfields]
      rfl
  | disconnected exchange reason =>
      show (StreamEvent.texts? "reason" (record [("exchange", text exchange),
        ("reason", text reason)])).map (fun texts => disconnected texts.1 texts.2) = _
      rw [StreamEvent.texts?_record (by decide), Option.map_some]
  | message exchange payload =>
      show (StreamEvent.texts? "payload" (record [("exchange", text exchange),
        ("payload", text payload)])).map (fun texts => message texts.1 texts.2) = _
      rw [StreamEvent.texts?_record (by decide), Option.map_some]

/-- Fills, orders, balances, markets, requests, subscriptions and the events of a stream are
read back from their texts, and written as the same texts again. Two things are lost on the way:
the sign of a zero, and the leap second of an instant that is not at the end of a minute. The
value is as it was, but for the signs of zeros, just if it has no such instant, and the text is as
it was just if it has no such zero. -/
theorem records_round_trip :
    (∀ a : Decimal, a.asRead.coefficient = a.coefficient ∧ a.asRead.scale = a.scale ∧
      (a.asRead = a ↔ ¬ (a.negative = true ∧ a.magnitude = 0))) ∧
    (∀ t : Timestamp, t.asRead = t ↔ t.nanos < Timestamp.perSecond ∨ t.seconds % 60 = 59) ∧
    RoundTripsUpTo Trade.toJson Trade.ofJson? Trade.mapParts ∧
    RoundTripsUpTo Order.toJson Order.ofJson? Order.mapParts ∧
    RoundTripsUpTo Balance.toJson Balance.ofJson? Balance.mapParts ∧
    RoundTrips Market.toJson Market.ofJson? ∧
    RoundTripsUpTo OrderKind.toJson OrderKind.ofJson? OrderKind.mapParts ∧
    RoundTripsUpTo OrderRequest.toJson OrderRequest.ofJson? OrderRequest.mapParts ∧
    RoundTrips CancelRequest.toJson CancelRequest.ofJson? ∧
    RoundTrips SubscriptionRequest.toJson SubscriptionRequest.ofJson? ∧
    RoundTrips SubscribeOptions.toJson SubscribeOptions.ofJson? ∧
    RoundTrips StreamEvent.toJson StreamEvent.ofJson? :=
  ⟨fun a => ⟨a.coefficient_asRead, rfl, a.asRead_eq_self_iff⟩, Timestamp.asRead_eq_self_iff,
    Trade.roundTripsUpTo, Order.roundTripsUpTo, Balance.roundTripsUpTo,
    roundTrips_of Market.written_toJson Market.ofJson?_toJson,
    OrderKind.roundTripsUpTo, OrderRequest.roundTripsUpTo,
    roundTrips_of CancelRequest.written_toJson CancelRequest.ofJson?_toJson,
    roundTrips_of SubscriptionRequest.written_toJson SubscriptionRequest.ofJson?_toJson,
    roundTrips_of SubscribeOptions.written_toJson SubscribeOptions.ofJson?_toJson,
    roundTrips_of StreamEvent.written_toJson StreamEvent.ofJson?_toJson⟩

/-- A balance of nothing with a sign is written with the sign and then without, and a fill in a leap
second in the middle of a minute is read as one of the next second. -/
theorem records_lose_sign_and_leap :
    let nothing : Balance := ⟨"BTC", ⟨true, 0, 2, by decide, by decide⟩, .zero⟩
    let within : Timestamp := ⟨29, 1500000000, by decide, by decide, by decide⟩
    let fill : Trade :=
      { id := "1", exchange := "sim", symbol := "BTCUSDT", side := .buy, price := .zero,
        quantity := .zero, fee := .zero, feeCurrency := "", isMaker := false, orderId := none,
        tradedAt := within }
    (nothing.available.text = "-0.00" ∧ ∃ b,
      (parse nothing.toJson.compact).bind Balance.ofJson? = some b ∧
        b.toJson.compact ≠ nothing.toJson.compact) ∧
    ∃ t, (parse fill.toJson.compact).bind Trade.ofJson? = some t ∧
      t.tradedAt.seconds = 30 ∧ t.tradedAt ≠ fill.tradedAt := by
  intro nothing within fill
  refine ⟨⟨by decide +kernel, _, Balance.roundTripsUpTo.read _, fun hsame => ?_⟩,
    _, Trade.roundTripsUpTo.read _, by decide, by decide⟩
  have hsign := (Balance.roundTripsUpTo.again _ _ (Balance.roundTripsUpTo.read _)).1 hsame
  exact absurd hsign (by decide)

end Records

end Tradebook
