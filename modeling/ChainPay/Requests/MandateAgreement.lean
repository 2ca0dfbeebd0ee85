import ChainPay.Requests.MandateFields
import ChainPay.Sdk.Disclosure

/-!
The two verifiers of mandate requests side by side. Both take the `Acceptable` documents, the
relay but for those that only `JSON.parse` and `atob` read as one, the SDK but for those that only
the derived reader does.
-/

namespace ChainPay.Requests
open ChainPay.Lib ChainPay.Sdk

/-- The payload of a document, in any spelling. -/
def payloadOf (d : Doc) : Option Doc := Relay.envelopeFields.find d "payload"

def signatureOf (d : Doc) : Option Doc := Relay.envelopeFields.find d "signature"

/-- The fields of a payload. -/
def fieldOf (v : Doc) (name : String) : Option Doc := Relay.payloadFields.find v name

def IsArray (d : Doc) : Prop := ∃ vs, d = .arr vs

/-- A known name stands twice. -/
def Repeats (f : Fields) (d : Doc) : Prop := ∃ ms, d = .obj ms ∧ ¬ Unrepeated f.names ms

/-- Spellings of a request that the relay takes and the SDK does not. -/
def RelayOnly (d : Doc) : Prop :=
  IsArray d ∨ ∃ v, payloadOf d = some v ∧
    (IsArray v ∨ HasNull (fieldOf v) ∨ HasEnd 0xFEFF (fieldOf v))

/-- The signature has bits after its last whole byte. -/
def HasSpareBits (d : Doc) : Prop :=
  ∃ ns : List Nat, (∀ n ∈ ns, n < 64) ∧ signatureOf d = some (.str (points (ns.map urlChar))) ∧
    spareBits ns ≠ 0

/-- Spellings of a request that the SDK takes and the relay does not. -/
def SdkOnly [SerdeJson] (r : Reading) (d : Doc) : Prop :=
  ¬ r.takes d ∨ (r = .direct ∧ Repeats Relay.envelopeFields d) ∨ HasSpareBits d ∨
    ∃ v, payloadOf d = some v ∧ ((r = .direct ∧ Repeats Relay.payloadFields v) ∨
      HasSpelling (fieldOf v) ∨ HasLone (fieldOf v) ∨ HasEnd 0x85 (fieldOf v))

theorem isObject_iff {f : Fields} {d : Doc} (hstrict : f.strict = true) :
    IsObject f d ↔ f.Admits .value d ∧ ¬ IsArray d := by
  cases d with
  | obj ms =>
    constructor
    · rintro ⟨-, hknown⟩
      exact ⟨⟨fun _ => hknown ms rfl, fun h => nomatch h⟩, fun ⟨vs, h⟩ => nomatch h⟩
    · rintro ⟨⟨hknown, -⟩, -⟩
      refine ⟨⟨ms, rfl⟩, fun ms' h => ?_⟩
      cases h
      exact hknown hstrict
  | arr vs =>
    constructor
    · rintro ⟨⟨ms, h⟩, -⟩
      cases h
    · rintro ⟨-, h⟩
      exact absurd ⟨vs, rfl⟩ h
  | null | bool b | num n | str u =>
    constructor
    · rintro ⟨⟨ms, h⟩, -⟩
      cases h
    · rintro ⟨h, -⟩
      exact h.elim

theorem chars_of_known {names : List String} {ms : List (JsText × Doc)} (h : Known names ms) :
    ∀ m ∈ ms, (chars m.1).isSome = true := by
  intro m hm
  obtain ⟨name, -, hname⟩ := List.mem_map.mp (h m hm)
  rw [← hname, key, chars_points]
  rfl

theorem admits_iff {f : Fields} {r : Reading} {d : Doc} (hstrict : f.strict = true) :
    f.Admits r d ↔ f.Admits .value d ∧ ¬ (r = .direct ∧ Repeats f d) := by
  cases d with
  | obj ms =>
    constructor
    · rintro ⟨hknown, hdirect⟩
      refine ⟨⟨hknown, fun h => nomatch h⟩, ?_⟩
      rintro ⟨hr, ms', hms, hrepeats⟩
      cases hms
      exact hrepeats (hdirect hr).2
    · rintro ⟨⟨hknown, -⟩, hnot⟩
      refine ⟨hknown, fun hr => ⟨chars_of_known (hknown hstrict), ?_⟩⟩
      by_contra hrepeats
      exact hnot ⟨hr, ms, rfl, hrepeats⟩
  | arr vs =>
    constructor
    · intro h
      exact ⟨h, fun ⟨_, ms, hms, _⟩ => nomatch hms⟩
    · exact fun h => h.1
  | null | bool b | num n | str u =>
    constructor
    · exact fun h => h.elim
    · exact fun h => h.1.elim

theorem hasEnd_points {v : Doc} {q : MandateRequestPayload (List Char)} {n : Nat}
    (h : Stated (fieldOf v) (q.map points)) : ¬ HasEnd n (fieldOf v) ↔
      (∀ u ∈ q.requesterName, ¬ EndsIn n (points u)) ∧ ¬ EndsIn n (points q.description) ∧
        (∀ u ∈ q.poNumber, ¬ EndsIn n (points u)) ∧ ¬ EndsIn n (points q.nonce) := by
  have hoptional : ∀ {name : String} {x : Option (List Char)} {u : List Char},
      Optional (fieldOf v name) (x.map points) → u ∈ x → fieldOf v name = some (.str (points u)) := by
    rintro name x u hx rfl
    exact hx
  constructor
  · intro hend
    have hfree : ∀ name ∈ TEXT_KEYS, ∀ u, fieldOf v name = some (.str u) → ¬ EndsIn n u :=
      fun name hname u hu hends => hend ⟨name, hname, u, hu, hends⟩
    exact ⟨fun u hu => hfree _ (by decide) _ (hoptional h.requesterName hu),
      hfree _ (by decide) _ h.description,
      fun u hu => hfree _ (by decide) _ (hoptional h.poNumber hu),
      hfree _ (by decide) _ h.nonce⟩
  · rintro ⟨hname, hdescription, hpo, hnonce⟩ ⟨name, hkey, u, hu, hend⟩
    simp only [TEXT_KEYS, List.mem_cons, List.not_mem_nil, or_false] at hkey
    rcases hkey with rfl | rfl | rfl | rfl
    · obtain ⟨t, ht, rfl⟩ := Option.map_eq_some_iff.mp (h.requesterName.of_str hu)
      exact hname t ht hend
    · cases h.description.symm.trans hu
      exact hdescription hend
    · obtain ⟨t, ht, rfl⟩ := Option.map_eq_some_iff.mp (h.poNumber.of_str hu)
      exact hpo t ht hend
    · cases h.nonce.symm.trans hu
      exact hnonce hend

theorem hasLone_points {v : Doc} {q : MandateRequestPayload (List Char)}
    (h : Stated (fieldOf v) (q.map points)) : ¬ HasLone (fieldOf v) := by
  rintro ⟨name, hkey, u, hu, hnone⟩
  have hpoints : ∀ t : List Char, chars (points t) ≠ none := by
    intro t
    rw [chars_points]
    exact Option.some_ne_none t
  simp only [TEXT_KEYS, List.mem_cons, List.not_mem_nil, or_false] at hkey
  rcases hkey with rfl | rfl | rfl | rfl
  · obtain ⟨t, -, rfl⟩ := Option.map_eq_some_iff.mp (h.requesterName.of_str hu)
    exact hpoints t hnone
  · cases h.description.symm.trans hu
    exact hpoints _ hnone
  · obtain ⟨t, -, rfl⟩ := Option.map_eq_some_iff.mp (h.poNumber.of_str hu)
    exact hpoints t hnone
  · cases h.nonce.symm.trans hu
    exact hpoints _ hnone

section

variable [PublicKey] [Ed25519]

/-- The signed bytes and their hash. -/
def outcome (p : MandateRequestPayload JsText) : VerifiedRequest where
  canonical := encodeUtf8 (canonicalMandateRequest p)
  requestHash := toHex (sha256 (encodeUtf8 (canonicalMandateRequest p)))

/-- A document that states a sound payload with a signature of its requester. -/
structure Acceptable (d : Doc) (p : MandateRequestPayload JsText) : Prop where
  envelope : Relay.envelopeFields.Admits .value d
  payload : ∃ v, payloadOf d = some v ∧ Relay.payloadFields.Admits .value v ∧
    Stated (fieldOf v) p
  sound : Sound p
  signed : ∃ ns : List Nat, (∀ n ∈ ns, n < 64) ∧
    signatureOf d = some (.str (points (ns.map urlChar))) ∧
    ∃ sig key, ofSextets ns = some sig ∧ sig.length = 64 ∧
      publicKeyBytes p.requester = some key ∧
      Ed25519.verify key (encodeUtf8 (canonicalMandateRequest p)) sig = true

/-- **What the SDK's verifier takes.** -/
theorem verifyMandateRequest_eq_ok {d : Doc} {x : VerifiedRequest} :
    verifyMandateRequest d none = .ok x ↔
      (∃ p, Acceptable d p ∧ x = outcome p) ∧ ¬ RelayOnly d := by
  simp only [verifyMandateRequest, parseSignedMandateRequest, ↓bind_eq_ok, ensure_eq_ok,
    exists_unit, pure_eq_ok, okOr_eq_ok, isPast, true_and, plainObject_eq_some, Option.some.injEq,
    parseMandateRequestPayload_eq_ok, refuseExtra_eq_ok, textOf_eq_some, base64UrlToBytes_eq_some]
  constructor
  · rintro ⟨signed, ⟨ms, rfl, hknown, signature, hsignature, p, ⟨v, hv, hobject, hstated, hsound,
      hnull, hend⟩, rfl⟩, sig, ⟨ns, hlt, htext, hsig⟩, hlen, key, hkey, hverify, rfl⟩
    have hv' : payloadOf (.obj ms) = some v := hv
    obtain ⟨hadmits, harray⟩ := (isObject_iff rfl).mp hobject
    refine ⟨⟨p, ⟨⟨fun _ => hknown, fun h => by cases h⟩, ⟨v, hv', hadmits, hstated⟩, hsound,
      ⟨ns, hlt, ?_, sig, key, hsig, hlen, hkey, hverify⟩⟩, rfl⟩, ?_⟩
    · rw [← htext]
      exact hsignature
    · rintro (⟨vs, h⟩ | ⟨w, hw, h⟩)
      · cases h
      · cases hv'.symm.trans hw
        rcases h with h | h | h
        · exact harray h
        · exact hnull h
        · exact hend h
  · rintro ⟨⟨p, ⟨henvelope, ⟨v, hv, hadmits, hstated⟩, hsound, ns, hlt, htext, sig, key, hsig, hlen,
      hkey, hverify⟩, rfl⟩, honly⟩
    have hpayload : ¬ (IsArray v ∨ HasNull (fieldOf v) ∨ HasEnd 0xFEFF (fieldOf v)) :=
      fun h => honly (.inr ⟨v, hv, h⟩)
    simp only [not_or] at hpayload
    obtain ⟨⟨ms, rfl⟩, hknown⟩ := (isObject_iff rfl).mpr ⟨henvelope, fun h => honly (.inl h)⟩
    exact ⟨⟨p, _⟩, ⟨ms, rfl, hknown ms rfl, _, htext, p, ⟨v, hv, (isObject_iff rfl).mpr
      ⟨hadmits, hpayload.1⟩, hstated, hsound, hpayload.2.1, hpayload.2.2⟩, rfl⟩, sig,
      ⟨ns, hlt, rfl, hsig⟩, hlen, key, hkey, hverify, rfl⟩

/-- **What the relay's reader and verifier take.** -/
theorem Relay.verifyDocument_eq_ok [SerdeJson] (hempty : PublicKey.ofText [] = none) {r : Reading}
    {d : Doc} {x : VerifiedRequest} : Relay.verifyDocument r d = .ok x ↔
      (∃ p, Acceptable d p ∧ x = outcome p) ∧ ¬ SdkOnly r d := by
  have hread : ∀ signed, Relay.readSigned r d = some signed ↔
      (r.takes d ∧ Relay.envelopeFields.Admits r d) ∧ ∃ v, payloadOf d = some v ∧
        Relay.readPayload r v = some signed.payload ∧
          signatureOf d = some (.str (points signed.signature)) := by
    intro signed
    unfold Relay.readSigned
    by_cases h : r.takes d ∧ Relay.envelopeFields.Admits r d
    · rw [if_pos h]
      simp only [h, ↓optionBind_eq_some, serdeString_eq_some, and_self, true_and]
      constructor
      · rintro ⟨v, hv, q, hq, signature, hsignature, hsigned⟩
        cases hsigned
        exact ⟨v, hv, hq, hsignature⟩
      · rintro ⟨v, hv, hq, hsignature⟩
        exact ⟨v, hv, _, hq, _, hsignature, rfl⟩
    · simp [h]
  simp only [Relay.verifyDocument, Relay.verifyMandateRequest, ↓bind_eq_ok, ensure_eq_ok,
    exists_unit, pure_eq_ok, okOr_eq_ok, hread, strictUrl_iff, Relay.readPayload_eq_some]
  constructor
  · rintro ⟨⟨q, signature⟩, ⟨⟨htakes, henvelope⟩, v, hv, ⟨hadmits, hstated, hspelling, -, hdecimals⟩,
      hsignature⟩, requester, hfields, sig, ⟨ns, hlt, rfl, hsig, hspare⟩, hlen, hverify, rfl⟩
    obtain ⟨hsound, hkey, hends⟩ := (Relay.checkFields_eq_ok hempty hdecimals).mp hfields
    obtain ⟨henvelope, hrepeats⟩ := (admits_iff rfl).mp henvelope
    obtain ⟨hadmits, hrepeatsPayload⟩ := (admits_iff rfl).mp hadmits
    rw [← canonical_points] at hverify
    refine ⟨⟨q.map points, ⟨henvelope, ⟨v, hv, hadmits, hstated⟩, hsound, ns, hlt, hsignature, sig,
      requester, hsig, hlen, ?_, hverify⟩, ?_⟩, ?_⟩
    · rw [publicKeyBytes, optionBind_eq_some]
      exact ⟨q.requester, chars_points _, hkey⟩
    · rw [outcome, canonical_points]
    · rintro (h | h | ⟨ms, hms, htext, hbits⟩ | ⟨w, hw, h⟩)
      · exact h htakes
      · exact hrepeats h
      · have hsame := hsignature.symm.trans htext
        rw [Option.some.injEq, Doc.str.injEq, points_injective.eq_iff] at hsame
        cases urlChar_injective hlt hms hsame
        exact hbits hspare
      · cases hv.symm.trans hw
        rcases h with h | h | h | h
        · exact hrepeatsPayload h
        · exact hspelling h
        · exact hasLone_points hstated h
        · exact (hasEnd_points hstated).mpr hends h
  · rintro ⟨⟨p, ⟨henvelope, ⟨v, hv, hadmits, hstated⟩, hsound, ns, hlt, htext, sig, key, hsig, hlen,
      hkey, hverify⟩, rfl⟩, honly⟩
    have htakes : r.takes d := not_not.mp fun h => honly (.inl h)
    have hrepeats := fun h => honly (.inr (.inl h))
    have hbits : spareBits ns = 0 :=
      not_not.mp fun h => honly (.inr (.inr (.inl ⟨ns, hlt, htext, h⟩)))
    have hpayload : ¬ ((r = .direct ∧ Repeats Relay.payloadFields v) ∨ HasSpelling (fieldOf v) ∨
        HasLone (fieldOf v) ∨ HasEnd 0x85 (fieldOf v)) :=
      fun h => honly (.inr (.inr (.inr ⟨v, hv, h⟩)))
    simp only [not_or] at hpayload
    obtain ⟨hrepeatsPayload, hspelling, hlone, hend⟩ := hpayload
    obtain ⟨q, rfl⟩ : ∃ q : MandateRequestPayload (List Char), q.map points = p :=
      ⟨_, map_rustText_payload hstated hsound hlone⟩
    have hversion : q.version < 256 := by
      have hone : q.version = 1 := hsound.version
      omega
    have hdecimals : q.decimals < 256 := Nat.lt_succ_of_le hsound.decimals
    have hsigner : PublicKey.ofText q.requester = some key := by
      rw [publicKeyBytes, optionBind_eq_some] at hkey
      obtain ⟨t, ht, hkey⟩ := hkey
      rwa [points_injective (chars_eq_some.mp ht)]
    have hfields := (Relay.checkFields_eq_ok hempty hdecimals).mpr
      ⟨hsound, hsigner, (hasEnd_points hstated).mp hend⟩
    rw [canonical_points] at hverify
    refine ⟨⟨q, _⟩, ⟨⟨htakes, (admits_iff rfl).mpr ⟨henvelope, hrepeats⟩⟩, v, hv,
      ⟨(admits_iff rfl).mpr ⟨hadmits, hrepeatsPayload⟩, hstated, hspelling, hversion, hdecimals⟩,
      htext⟩, key, hfields, sig, ⟨ns, hlt, rfl, hsig, hbits⟩, hlen, hverify, ?_⟩
    rw [outcome, canonical_points]

/-- **Where the two verifiers agree.** They report the same of a document, with the same signed
bytes and the same hash, exactly if an acceptable document is spelled for both or for neither. -/
theorem mandate_verifiers_agree_iff [SerdeJson] (hempty : PublicKey.ofText [] = none)
    (r : Reading) (d : Doc) :
    (verifyMandateRequest d none).toOption = (Relay.verifyDocument r d).toOption ↔
      ((∃ p, Acceptable d p) → (RelayOnly d ↔ SdkOnly r d)) := by
  have hiff := readers_eq_iff
    (fun x => toOption_eq_some.trans (verifyMandateRequest_eq_ok (d := d)))
    (fun x => toOption_eq_some.trans (Relay.verifyDocument_eq_ok hempty (r := r) (d := d)))
  rw [hiff]
  constructor
  · rintro h ⟨p, hp⟩
    exact h ⟨outcome p, p, hp, rfl⟩
  · rintro h ⟨x, p, hp, -⟩
    exact h ⟨p, hp⟩

end

/-! ## The fixture -/

def whole (n : Nat) : Doc := .num ⟨false, n, none, none⟩

def text (s : String) : Doc := .str (key s)

/-- The fields of the request that the SDK signed for the relay's tests. -/
def fixtureFields : List (JsText × Doc) :=
  [(key "version", whole 1), (key "cluster", text "devnet"), (key "role", text "vendor"),
   (key "requester", text "J2xccRtuG43drESLYznHhLhQkLTdfepcKYbiQ9BsJVaf"),
   (key "requesterName", text "Acme Data Co"),
   (key "mint", text "4zMMC9srt5Ri5X14GAgXhaHii3GnPAEERYPJgZJDncDU"),
   (key "tokenProgram", text "spl-token"),
   (key "recipient", text "p2Yicb86aZig616Eav2VWG9vuXR5mEqhtzshZYBxzsV"),
   (key "suggestedMaxPerPayment", text "5000000"), (key "suggestedTotal", text "50000000"),
   (key "decimals", whole 6), (key "suggestedExpirySlot", text "406480000"),
   (key "validUntilSlot", text "401512000"),
   (key "description", text "Market data API — billed per call, \"café\" tier"),
   (key "poNumber", text "PO-1042"), (key "nonce", text "n-1")]

def fixtureSignature : String :=
  "3NNxvhM9LBXAvuqsPLS-n7gDhIzU9x_jKpwQwbqM7gCICxUwbw7dCvkZzqJePSWbdtIwQAPCGzDbipRwmJ8oBg"

/-- The fixture with some more fields in its payload. -/
def fixtureWith (more : List (JsText × Doc)) : Doc :=
  .obj [(key "payload", .obj (fixtureFields ++ more)), (key "signature", text fixtureSignature)]

/-- The payload of the fixture as it was signed. -/
def fixturePayload : MandateRequestPayload (List Char) where
  version := 1
  cluster := "devnet".toList
  role := "vendor".toList
  requester := "J2xccRtuG43drESLYznHhLhQkLTdfepcKYbiQ9BsJVaf".toList
  requesterName := some "Acme Data Co".toList
  agent := none
  mint := "4zMMC9srt5Ri5X14GAgXhaHii3GnPAEERYPJgZJDncDU".toList
  tokenProgram := "spl-token".toList
  recipient := some "p2Yicb86aZig616Eav2VWG9vuXR5mEqhtzshZYBxzsV".toList
  suggestedMaxPerPayment := "5000000".toList
  suggestedTotal := "50000000".toList
  decimals := 6
  suggestedExpirySlot := some "406480000".toList
  validUntilSlot := some "401512000".toList
  description := "Market data API — billed per call, \"café\" tier".toList
  poNumber := some "PO-1042".toList
  nonce := "n-1".toList

/-- Takes the one signature of the fixture. -/
@[reducible] def fixtureVerifier : Ed25519 where
  verify key message signature :=
    base58Text key = fixturePayload.requester &&
      message = Relay.canonicalMandateRequest fixturePayload &&
      base64Url signature = fixtureSignature.toList

/-- Holds the numbers that a double holds. -/
@[reducible] def finiteNumbers : SerdeJson := ⟨fun n => n.value.isSome⟩

/-- A whole number in digits, or a text that ends in no white space. -/
def Ordinary (v : Doc) : Prop :=
  (∃ n, v = whole n) ∨ ∃ s, v = text s ∧ ¬ EndsIn 0xFEFF (key s) ∧ ¬ EndsIn 0x85 (key s)

theorem fixture_ordinary : ∀ m ∈ fixtureFields, Ordinary m.2 := by
  have htext : ∀ s, ¬ EndsIn 0xFEFF (key s) ∧ ¬ EndsIn 0x85 (key s) → Ordinary (text s) :=
    fun s h => .inr ⟨s, rfl, h⟩
  have hwhole : ∀ n, Ordinary (whole n) := fun n => .inl ⟨n, rfl⟩
  simp only [fixtureFields, List.forall_mem_cons, List.not_mem_nil, false_implies, implies_true,
    and_true]
  refine ⟨hwhole 1, htext _ ?_, htext _ ?_, htext _ ?_, htext _ ?_, htext _ ?_, htext _ ?_,
    htext _ ?_, htext _ ?_, htext _ ?_, hwhole 6, htext _ ?_, htext _ ?_, htext _ ?_, htext _ ?_,
    htext _ ?_⟩
  all_goals decide +kernel

def fixtureKey : Bytes := (base58Bytes fixturePayload.requester).getD []

/-- What the relay reads of the fixture, and that it verifies. A member that it takes for an
absent one changes nothing. -/
theorem verifyDocument_fixture :
    letI := base58
    letI := fixtureVerifier
    letI := finiteNumbers
    ∀ more ∈ [[], [(key "agent", Doc.null)]],
      (Relay.verifyDocument .value (fixtureWith more)).toOption.isSome = true := by
  have hfields : @Relay.checkFields base58 fixturePayload = .ok fixtureKey := by decide +kernel
  have hkey : base58Text fixtureKey = fixturePayload.requester := by decide +kernel
  have hlength : (strictUrl fixtureSignature.toList).map List.length = some 64 := by
    decide +kernel
  obtain ⟨sig, hsig, hlen⟩ := Option.map_eq_some_iff.mp hlength
  have htext : base64Url sig = fixtureSignature.toList :=
    (base64Url_eq sig).trans (strictUrl_eq_some.mp hsig).symm
  have hverify : @Ed25519.verify fixtureVerifier fixtureKey
      (Relay.canonicalMandateRequest fixturePayload) sig = true := by
    simp only [Ed25519.verify, hkey, htext, decide_true, Bool.and_self]
  have hok : ∃ x, @Relay.verifyMandateRequest base58 fixtureVerifier
      ⟨fixturePayload, fixtureSignature.toList⟩ = .ok x := by
    refine ⟨⟨Relay.canonicalMandateRequest fixturePayload,
      toHex (sha256 (Relay.canonicalMandateRequest fixturePayload))⟩, ?_⟩
    simp only [Relay.verifyMandateRequest, ↓bind_eq_ok, ensure_eq_ok, exists_unit, pure_eq_ok,
      okOr_eq_ok]
    exact ⟨fixtureKey, hfields, sig, hsig, hlen, hverify, trivial⟩
  obtain ⟨x, hx⟩ := hok
  have hread : ∀ more ∈ [[], [(key "agent", Doc.null)]],
      @Relay.readSigned finiteNumbers .value (fixtureWith more) =
        some ⟨fixturePayload, fixtureSignature.toList⟩ := by
    simp only [List.forall_mem_cons, List.not_mem_nil, false_implies, implies_true, and_true]
    refine ⟨?_, ?_⟩
    · decide +kernel
    · decide +kernel
  intro more hmore
  have hdocument : @Relay.verifyDocument base58 fixtureVerifier finiteNumbers .value
      (fixtureWith more) = .ok x :=
    bind_eq_ok.mpr ⟨_, okOr_eq_ok.mpr (hread more hmore), hx⟩
  rw [hdocument]
  rfl

/-- The fixture is spelled for both. -/
theorem mandate_verifiers_agree_fixture :
    letI := base58
    letI := fixtureVerifier
    letI := finiteNumbers
    (verifyMandateRequest (fixtureWith []) none).toOption =
        (Relay.verifyDocument .value (fixtureWith [])).toOption ∧
      (Relay.verifyDocument .value (fixtureWith [])).toOption.isSome = true := by
  let _ := base58
  let _ := fixtureVerifier
  let _ := finiteNumbers
  have hpayload : ∀ v, payloadOf (fixtureWith []) = some v → v = .obj fixtureFields := by
    intro v hv
    have hlast : lastOf [(key "payload", .obj (fixtureFields ++ [])),
      (key "signature", text fixtureSignature)] "payload" = some v := hv
    have hmem := mem_of_lastOf hlast
    simp only [List.mem_cons, List.not_mem_nil, or_false, Prod.mk.injEq, true_and,
      List.append_nil] at hmem
    rcases hmem with h | ⟨h, -⟩
    · exact h
    · exact absurd (key_injective h) (by decide)
  have hfields : ∀ name w, fieldOf (.obj fixtureFields) name = some w → Ordinary w :=
    fun name w hw => fixture_ordinary _ (mem_of_lastOf hw)
  have hrelay : ¬ RelayOnly (fixtureWith []) := by
    rintro (⟨vs, h⟩ | ⟨v, hv, h⟩)
    · cases h
    · cases hpayload v hv
      rcases h with ⟨vs, h⟩ | ⟨name, -, hnull⟩ | ⟨name, -, u, hu, hend⟩
      · cases h
      · rcases hfields _ _ hnull with ⟨n, h⟩ | ⟨s, h, -⟩
        · cases h
        · cases h
      · rcases hfields _ _ hu with ⟨n, h⟩ | ⟨s, h, hfeff, -⟩
        · cases h
        · cases h
          exact hfeff hend
  have hsdk : ¬ SdkOnly .value (fixtureWith []) := by
    rintro (h | ⟨h, -⟩ | ⟨ns, hlt, htext, hbits⟩ | ⟨v, hv, h⟩)
    · exact h fun _ => by decide +kernel
    · cases h
    · have hlast : lastOf [(key "payload", .obj (fixtureFields ++ [])),
        (key "signature", text fixtureSignature)] "signature" =
          some (.str (points (ns.map urlChar))) := htext
      have hmem := mem_of_lastOf hlast
      simp only [List.mem_cons, List.not_mem_nil, or_false, Prod.mk.injEq, true_and] at hmem
      rcases hmem with ⟨h, -⟩ | h
      · exact absurd (key_injective h) (by decide)
      · have hstrict : (strictUrl fixtureSignature.toList).isSome = true := by decide +kernel
        obtain ⟨sig, hsig⟩ := Option.isSome_iff_exists.mp hstrict
        obtain ⟨ms, hms, hmap, -, hspare⟩ := strictUrl_iff.mp hsig
        have hsame : ns.map urlChar = ms.map urlChar := by
          rw [← hmap]
          exact points_injective (Doc.str.inj h)
        rw [urlChar_injective hlt hms hsame] at hbits
        exact hbits hspare
    · cases hpayload v hv
      rcases h with ⟨h, -⟩ | ⟨name, -, n, hn, hplain⟩ | ⟨name, -, u, hu, hnone⟩ |
        ⟨name, -, u, hu, hend⟩
      · cases h
      · rcases hfields _ _ hn with ⟨k, h⟩ | ⟨s, h, -⟩
        · cases h
          cases hplain
        · cases h
      · rcases hfields _ _ hu with ⟨n, h⟩ | ⟨s, h, -⟩
        · cases h
        · cases h
          rw [key, chars_points] at hnone
          cases hnone
      · rcases hfields _ _ hu with ⟨n, h⟩ | ⟨s, h, -, hnel⟩
        · cases h
        · cases h
          exact hnel hend
  exact ⟨(mandate_verifiers_agree_iff (by decide +kernel) .value _).mpr fun _ =>
    iff_of_false hrelay hsdk, verifyDocument_fixture _ List.mem_cons_self⟩

/-- A vendor's request that gives its agent as `null`. -/
theorem mandate_verifiers_disagree_null :
    letI := base58
    letI := fixtureVerifier
    letI := finiteNumbers
    (verifyMandateRequest (fixtureWith [(key "agent", .null)]) none).toOption = none ∧
      (Relay.verifyDocument .value (fixtureWith [(key "agent", .null)])).toOption.isSome = true := by
  refine ⟨?_, ?_⟩
  · exact Option.isNone_iff_eq_none.mp (by decide +kernel)
  · exact verifyDocument_fixture _ (List.mem_cons_of_mem _ List.mem_cons_self)

end ChainPay.Requests
