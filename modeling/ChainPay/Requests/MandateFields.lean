import ChainPay.Requests.Mandate

/-!
What the two verifiers of mandate requests take, field by field. A payload is `Stated` by its
fields in any spelling and `Sound` when it meets the checks that both verifiers make; the SDK's
parser and the relay's reader and checks take the sound payloads but for some spellings
(`parseMandateRequestPayload_eq_ok`, `Relay.readPayload_eq_some`, `Relay.checkFields_eq_ok`).
-/

namespace ChainPay.Requests
open ChainPay.Lib ChainPay.Sdk

/-! ## Texts -/

/-- A text that both languages find trimmed, short enough and on one line, but for the white
space that only one of them knows. -/
structure Tidy (max : Nat) (u : JsText) : Prop where
  nonempty : u ≠ []
  tight : Tight (onChar fun c => isCommonSpace c.toNat) u
  short : u.length ≤ max
  plain : u.any (onChar isControlCharacter) = false

/-- A text that starts or ends with a character. -/
def EndsIn (n : Nat) (u : JsText) : Prop := ¬ Tight (onChar fun c => c.toNat = n) u

instance (n : Nat) (u : JsText) : Decidable (EndsIn n u) := inferInstanceAs (Decidable (¬ _))

theorem onChar_or {p q : Char → Bool} :
    onChar (fun c => p c || q c) = fun x => onChar p x || onChar q x := by
  funext x
  cases x with
  | char c => rfl
  | lone n => rfl

theorem tight_js {u : JsText} : Tight (onChar isJsSpace) u ↔
    Tight (onChar fun c => isCommonSpace c.toNat) u ∧ ¬ EndsIn 0xFEFF u := by
  have hor : onChar isJsSpace = fun x =>
      onChar (fun c => isCommonSpace c.toNat) x || onChar (fun c => c.toNat = 0xFEFF) x := onChar_or
  rw [hor, tight_or, EndsIn, not_not]

theorem tight_rust {s : List Char} : Tight isRustSpace s ↔
    Tight (onChar fun c => isCommonSpace c.toNat) (points s) ∧ ¬ EndsIn 0x85 (points s) := by
  have hor : onChar isRustSpace = fun x =>
      onChar (fun c => isCommonSpace c.toNat) x || onChar (fun c => c.toNat = 0x85) x := onChar_or
  rw [← tight_points, hor, tight_or, EndsIn, not_not]

@[simp] theorem boundedText_eq_ok {value : Option Doc} {name : JsText} {max : Nat} {u : JsText} :
    boundedText value name max = .ok u ↔
      value = some (.str u) ∧ Tidy max u ∧ ¬ EndsIn 0xFEFF u := by
  simp only [boundedText, bind_eq_ok, okOr_eq_ok, ensure_eq_ok, exists_unit, pure_eq_ok,
    textOf_eq_some]
  constructor
  · rintro ⟨v, hv, hne, hself, hshort, hplain, rfl⟩
    have htight := tight_js.mp (trim_eq_self_iff.mp hself.symm)
    exact ⟨hv, ⟨fun hnil => hne (by rw [← hself, hnil]), htight.1, hshort, hplain⟩, htight.2⟩
  · rintro ⟨hv, hu, hend⟩
    have hself : trimPoints u = u := trim_eq_self_iff.mpr (tight_js.mpr ⟨hu.tight, hend⟩)
    have hne : trimPoints u ≠ [] := by
      rw [hself]
      exact hu.nonempty
    exact ⟨u, hv, hne, hself.symm, hu.short, hu.plain, rfl⟩

theorem isControlCharacter_eq :
    isControlCharacter = fun c => decide (c.toNat < 0x20) || decide (c.toNat = 0x7f) := by
  funext c
  have hle : c.toNat ≤ 0x1f ↔ c.toNat < 0x20 := by omega
  simp only [isControlCharacter, hle]

theorem Relay.boundedText_some {s : List Char} {name : String} {max : Nat} {required : Bool} :
    Relay.boundedText (some s) name max required = .ok () ↔
      Tidy max (points s) ∧ ¬ EndsIn 0x85 (points s) := by
  simp only [Relay.boundedText, bind_eq_ok, ensure_eq_ok, exists_unit]
  have hany : (points s).any (onChar isControlCharacter) =
      s.any fun c => decide (c.toNat < 0x20) || decide (c.toNat = 0x7f) := by
    rw [any_points, isControlCharacter_eq]
  have hlen : (points s).length = s.length := List.length_map _
  constructor
  · rintro ⟨hne, hself, hshort, hplain⟩
    have htight := tight_rust.mp (trim_eq_self_iff.mp hself.symm)
    refine ⟨⟨?_, htight.1, hlen ▸ hshort, hany.trans hplain⟩, htight.2⟩
    intro hnil
    rw [List.map_eq_nil_iff.mp hnil] at hne
    exact hne rfl
  · rintro ⟨hu, hend⟩
    have hself : rustTrim s = s := trim_eq_self_iff.mpr (tight_rust.mpr ⟨hu.tight, hend⟩)
    refine ⟨?_, hself.symm, hlen ▸ hu.short, hany.symm.trans hu.plain⟩
    rw [hself]
    rintro rfl
    exact hu.nonempty rfl

theorem Relay.boundedText_optional {value : Option (List Char)} {name : String} {max : Nat} :
    Relay.boundedText value name max false = .ok () ↔
      ∀ s ∈ value, Tidy max (points s) ∧ ¬ EndsIn 0x85 (points s) := by
  cases value with
  | none => simp [Relay.boundedText]
  | some s => simp [Relay.boundedText_some]

/-! ## Payloads -/

/-- An optional field; `null` stands for none. -/
def Optional (value : Option Doc) : Option JsText → Prop
  | none => value = none ∨ value = some .null
  | some u => value = some (.str u)

/-- The fields of a payload, in any spelling. -/
structure Stated (get : String → Option Doc) (p : MandateRequestPayload JsText) : Prop where
  version : naturalOf (get "version") = some p.version
  cluster : get "cluster" = some (.str p.cluster)
  role : get "role" = some (.str p.role)
  requester : get "requester" = some (.str p.requester)
  requesterName : Optional (get "requesterName") p.requesterName
  agent : Optional (get "agent") p.agent
  mint : get "mint" = some (.str p.mint)
  tokenProgram : get "tokenProgram" = some (.str p.tokenProgram)
  recipient : Optional (get "recipient") p.recipient
  perPayment : get "suggestedMaxPerPayment" = some (.str p.suggestedMaxPerPayment)
  total : get "suggestedTotal" = some (.str p.suggestedTotal)
  decimals : naturalOf (get "decimals") = some p.decimals
  expiry : Optional (get "suggestedExpirySlot") p.suggestedExpirySlot
  validUntil : Optional (get "validUntilSlot") p.validUntilSlot
  description : get "description" = some (.str p.description)
  poNumber : Optional (get "poNumber") p.poNumber
  nonce : get "nonce" = some (.str p.nonce)

section

variable [PublicKey]

def IsKey (u : JsText) : Prop := ∃ t, u = points t ∧ IsAddress t

def IsAmountText (u : JsText) : Prop := ∃ t, u = points t ∧ IsAmount t

/-- A vendor names a recipient only, a grantee an agent only. -/
def Roles (role : JsText) (recipient agent : Option JsText) : Prop :=
  (role = key "vendor" ∧ (∃ u, recipient = some u ∧ IsKey u) ∧ agent = none) ∨
    (role = key "grantee" ∧ (∃ u, agent = some u ∧ IsKey u) ∧ recipient = none)

theorem Roles.mem {role : JsText} {recipient agent : Option JsText}
    (h : Roles role recipient agent) : role ∈ ["vendor", "grantee"].map key := by
  rcases h with ⟨rfl, -, -⟩ | ⟨rfl, -, -⟩
  · exact List.mem_map_of_mem (by decide)
  · exact List.mem_map_of_mem (by decide)

/-- What both verifiers want of a payload. -/
structure Sound (p : MandateRequestPayload JsText) : Prop where
  version : p.version = 1
  cluster : p.cluster ∈ ["devnet", "mainnet-beta"].map key
  tokenProgram : p.tokenProgram ∈ ["spl-token", "token-2022"].map key
  requester : IsKey p.requester
  mint : IsKey p.mint
  role : Roles p.role p.recipient p.agent
  requesterName : ∀ u ∈ p.requesterName, Tidy MAX_REQUESTER_NAME_LENGTH u
  description : Tidy MAX_REQUEST_DESCRIPTION_LENGTH p.description
  poNumber : ∀ u ∈ p.poNumber, Tidy MAX_PO_NUMBER_LENGTH u
  nonce : Tidy MAX_REQUEST_NONCE_LENGTH p.nonce
  amounts : ∃ a b, p.suggestedMaxPerPayment = points a ∧ p.suggestedTotal = points b ∧
    IsAmount a ∧ IsAmount b ∧ decimalValue a ≤ decimalValue b
  decimals : p.decimals ≤ 255
  expiry : ∀ u ∈ p.suggestedExpirySlot, IsAmountText u
  validUntil : ∀ u ∈ p.validUntilSlot, IsAmountText u

end

def OPTIONAL_KEYS : List String :=
  ["requesterName", "agent", "recipient", "suggestedExpirySlot", "validUntilSlot", "poNumber"]

/-- The fields that hold free text. -/
def TEXT_KEYS : List String := ["requesterName", "description", "poNumber", "nonce"]

/-- An optional field is `null`. -/
def HasNull (get : String → Option Doc) : Prop :=
  ∃ name ∈ OPTIONAL_KEYS, get name = some .null

/-- A free text starts or ends with a character. -/
def HasEnd (n : Nat) (get : String → Option Doc) : Prop :=
  ∃ name ∈ TEXT_KEYS, ∃ u, get name = some (.str u) ∧ EndsIn n u

/-- A free text holds half a surrogate pair. -/
def HasLone (get : String → Option Doc) : Prop :=
  ∃ name ∈ TEXT_KEYS, ∃ u, get name = some (.str u) ∧ chars u = none

/-- A number is spelled with more than digits. -/
def HasSpelling (get : String → Option Doc) : Prop :=
  ∃ name ∈ ["version", "decimals"], ∃ n, get name = some (.num n) ∧ n.plain = none

/-! ## The SDK's parser -/

/-- A value that the SDK checks when it is there. -/
theorem whenPresent_str {α : Type} {value : Option Doc} {check : Option Doc → Except JsText α}
    {x : Option α} {text : α → JsText} {Good : α → Prop}
    (hcheck : ∀ a, check value = .ok a ↔ value = some (.str (text a)) ∧ Good a) :
    whenPresent value check = .ok x ↔
      Optional value (x.map text) ∧ value ≠ some .null ∧ ∀ a ∈ x, Good a := by
  rw [whenPresent_eq_ok]
  constructor
  · rintro (⟨rfl, rfl⟩ | ⟨a, -, ha, rfl⟩)
    · exact ⟨.inl rfl, fun h => (nomatch h), fun a ha => (nomatch ha)⟩
    · obtain ⟨hv, hgood⟩ := (hcheck a).mp ha
      refine ⟨hv, fun hnull => ?_, ?_⟩
      · cases hv.symm.trans hnull
      · intro b hb
        cases hb
        exact hgood
  · rintro ⟨hopt, hnull, hgood⟩
    cases x with
    | none => exact .inl ⟨hopt.resolve_right hnull, rfl⟩
    | some a =>
      have hv : value = some (.str (text a)) := hopt
      exact .inr ⟨a, by simp [hv], (hcheck a).mpr ⟨hv, hgood a rfl⟩, rfl⟩

theorem boundedText_present {value : Option Doc} {name : JsText} {max : Nat}
    {x : Option JsText} :
    whenPresent value (fun v => boundedText v name max) = .ok x ↔
      Optional value x ∧ value ≠ some .null ∧ ∀ u ∈ x, Tidy max u ∧ ¬ EndsIn 0xFEFF u := by
  have h : whenPresent value (fun v => boundedText v name max) = .ok x ↔
      Optional value (x.map id) ∧ value ≠ some .null ∧
        ∀ u ∈ x, Tidy max u ∧ ¬ EndsIn 0xFEFF u := whenPresent_str fun _ => boundedText_eq_ok
  rwa [Option.map_id, id] at h

theorem u64String_present {value : Option Doc} {name : JsText} {x : Option (JsText × Nat)} :
    whenPresent value (fun v => u64String v name true) = .ok x ↔
      Optional value (x.map Prod.fst) ∧ value ≠ some .null ∧
        ∀ a ∈ x, ∃ t, a.1 = points t ∧ IsAmount t ∧ a.2 = decimalValue t :=
  whenPresent_str fun _ => u64String_eq_ok

theorem Optional.of_str {value : Option Doc} {x : Option JsText} {u : JsText}
    (h : Optional value x) (hu : value = some (.str u)) : x = some u := by
  cases x with
  | none =>
    rcases h with h | h
    · cases h.symm.trans hu
    · cases h.symm.trans hu
  | some v =>
    cases (show value = some (.str v) from h).symm.trans hu
    rfl

/-- The slot that the SDK has checked when it is there. -/
theorem slot_present {value : Option Doc} {name : JsText} {x : Option JsText} :
    (∃ a, whenPresent value (fun v => u64String v name true) = .ok a ∧ a.map Prod.fst = x) ↔
      Optional value x ∧ value ≠ some .null ∧ ∀ u ∈ x, IsAmountText u := by
  constructor
  · rintro ⟨a, ha, rfl⟩
    obtain ⟨hopt, hnull, hgood⟩ := u64String_present.mp ha
    refine ⟨hopt, hnull, fun u hu => ?_⟩
    obtain ⟨⟨v, n⟩, hmem, rfl⟩ := Option.map_eq_some_iff.mp hu
    obtain ⟨t, ht, hamount, -⟩ := hgood _ hmem
    exact ⟨t, ht, hamount⟩
  · rintro ⟨hopt, hnull, hgood⟩
    cases x with
    | none => exact ⟨none, u64String_present.mpr ⟨hopt, hnull, fun a ha => (nomatch ha)⟩, rfl⟩
    | some u =>
      obtain ⟨t, ht, hamount⟩ := hgood u rfl
      refine ⟨some (u, decimalValue t), u64String_present.mpr ⟨hopt, hnull, ?_⟩, rfl⟩
      intro a ha
      cases ha
      exact ⟨t, ht, hamount, rfl⟩

theorem plainObject_eq_some {value : Option Doc} {ms : List (JsText × Doc)} :
    plainObject value = some ms ↔ value = some (.obj ms) := by
  constructor
  · intro h
    unfold plainObject at h
    split at h
    · cases h
      rfl
    · cases h
  · rintro rfl
    rfl

/-- The object that the SDK's parser reads. -/
structure IsObject (f : Fields) (d : Doc) : Prop where
  object : ∃ ms, d = .obj ms
  known : ∀ ms, d = .obj ms → Known f.names ms

section

variable [PublicKey]

theorem parties_eq_ok {role : JsText} {rv av : Option Doc} {r a : Option JsText}
    (hrole : role ∈ ["vendor", "grantee"].map key) : parties role rv av = .ok (r, a) ↔
      Optional rv r ∧ Optional av a ∧ rv ≠ some .null ∧ av ≠ some .null ∧ Roles role r a := by
  have hne : key "grantee" ≠ key "vendor" := fun h => absurd (key_injective h) (by decide)
  have hcases : role = key "vendor" ∨ role = key "grantee" := by
    simpa using hrole
  rcases hcases with rfl | rfl
  · simp only [parties, if_true, bind_eq_ok, canonicalAddress_eq_ok, ensure_eq_ok, exists_unit,
      pure_eq_ok, Prod.mk.injEq, Option.isNone_iff_eq_none]
    constructor
    · rintro ⟨u, ⟨rfl, hu⟩, rfl, rfl, rfl⟩
      exact ⟨rfl, .inl rfl, by simp, by simp, .inl ⟨rfl, ⟨u, rfl, hu⟩, rfl⟩⟩
    · rintro ⟨hr, ha, -, hnull, ⟨-, ⟨u, rfl, hu⟩, rfl⟩ | ⟨heq, -, -⟩⟩
      · exact ⟨u, ⟨hr, hu⟩, ha.resolve_right hnull, rfl, rfl⟩
      · exact absurd heq.symm hne
  · simp only [parties, hne, if_false, bind_eq_ok, canonicalAddress_eq_ok, ensure_eq_ok,
      exists_unit, pure_eq_ok, Prod.mk.injEq, Option.isNone_iff_eq_none]
    constructor
    · rintro ⟨u, ⟨rfl, hu⟩, rfl, rfl, rfl⟩
      exact ⟨.inl rfl, rfl, by simp, by simp, .inr ⟨rfl, ⟨u, rfl, hu⟩, rfl⟩⟩
    · rintro ⟨hr, ha, hnull, -, ⟨heq, -, -⟩ | ⟨-, ⟨u, rfl, hu⟩, rfl⟩⟩
      · exact absurd heq hne
      · exact ⟨u, ⟨ha, hu⟩, hr.resolve_right hnull, rfl, rfl⟩

/-- **What the SDK's parser takes.** -/
theorem parseMandateRequestPayload_eq_ok {value : Option Doc}
    {p : MandateRequestPayload JsText} : parseMandateRequestPayload value = .ok p ↔
      ∃ d, value = some d ∧ IsObject Relay.payloadFields d ∧
        Stated (Relay.payloadFields.find d) p ∧ Sound p ∧
        ¬ HasNull (Relay.payloadFields.find d) ∧ ¬ HasEnd 0xFEFF (Relay.payloadFields.find d) := by
  constructor
  · intro h
    simp only [parseMandateRequestPayload, bind_eq_ok, okOr_eq_ok, ensure_eq_ok, exists_unit,
      pure_eq_ok, oneOf_eq_ok, canonicalAddress_eq_ok, boundedText_eq_ok,
      boundedText_present, u64String_eq_ok, plainObject_eq_some, refuseExtra_eq_ok] at h
    obtain ⟨ms, rfl, hknown, hversion, cluster, ⟨hcluster, hclusterIn⟩, role, ⟨hrole, hroleIn⟩,
      token, ⟨htoken, htokenIn⟩, requester, ⟨hrequester, hrequesterKey⟩, mint, ⟨hmint, hmintKey⟩,
      ⟨recipient, agent⟩, hparties, name, ⟨hname, hnameNull, hnameTidy⟩, description,
      ⟨hdescription, hdescriptionTidy, hdescriptionEnd⟩, po, ⟨hpo, hpoNull, hpoTidy⟩, nonce,
      ⟨hnonce, hnonceTidy, hnonceEnd⟩, ⟨per, perValue⟩, ⟨hper, a, hperText, hperAmount, hperValue⟩,
      ⟨total, totalValue⟩, ⟨htotal, b, htotalText, htotalAmount, htotalValue⟩, hle, decimals,
      hdecimals, expiry, hexpiry, valid, hvalid, rfl⟩ := h
    dsimp only at hper hperText hperValue htotal htotalText htotalValue hle
    rw [Option.filter_eq_some_iff] at hdecimals
    obtain ⟨hexpiryOpt, hexpiryNull, hexpiryAmount⟩ := slot_present.mp ⟨expiry, hexpiry, rfl⟩
    obtain ⟨hvalidOpt, hvalidNull, hvalidAmount⟩ := slot_present.mp ⟨valid, hvalid, rfl⟩
    obtain ⟨hrecipientOpt, hagentOpt, hrecipientNull, hagentNull, hroles⟩ :=
      (parties_eq_ok hroleIn).mp hparties
    refine ⟨.obj ms, rfl, ⟨⟨ms, rfl⟩, fun ms' h => ?_⟩, ?_, ?_, ?_, ?_⟩
    · cases h
      exact hknown
    · exact ⟨hversion, hcluster, hrole, hrequester, hname, hagentOpt, hmint, htoken,
        hrecipientOpt, hper, htotal, hdecimals.1, hexpiryOpt, hvalidOpt, hdescription, hpo, hnonce⟩
    · refine ⟨rfl, hclusterIn, htokenIn, hrequesterKey, hmintKey, hroles,
        fun u hu => (hnameTidy u hu).1, hdescriptionTidy, fun u hu => (hpoTidy u hu).1,
        hnonceTidy, ⟨a, b, hperText, htotalText, hperAmount, htotalAmount, ?_⟩,
        of_decide_eq_true hdecimals.2, hexpiryAmount, hvalidAmount⟩
      rwa [← hperValue, ← htotalValue]
    · rintro ⟨key, hkey, hnull⟩
      simp only [OPTIONAL_KEYS, List.mem_cons, List.not_mem_nil, or_false] at hkey
      rcases hkey with rfl | rfl | rfl | rfl | rfl | rfl
      · exact hnameNull hnull
      · exact hagentNull hnull
      · exact hrecipientNull hnull
      · exact hexpiryNull hnull
      · exact hvalidNull hnull
      · exact hpoNull hnull
    · rintro ⟨key, hkey, u, hu, hend⟩
      simp only [TEXT_KEYS, List.mem_cons, List.not_mem_nil, or_false] at hkey
      rcases hkey with rfl | rfl | rfl | rfl
      · exact (hnameTidy u (hname.of_str hu)).2 hend
      · cases hdescription.symm.trans hu
        exact hdescriptionEnd hend
      · exact (hpoTidy u (hpo.of_str hu)).2 hend
      · cases hnonce.symm.trans hu
        exact hnonceEnd hend
  · rintro ⟨d, rfl, ⟨⟨ms, rfl⟩, hknown⟩, hstated, hsound, hnull, hend⟩
    have hpresent : ∀ name ∈ OPTIONAL_KEYS, lastOf ms name ≠ some .null :=
      fun name hname h => hnull ⟨name, hname, h⟩
    have hfree : ∀ name ∈ TEXT_KEYS, ∀ u, lastOf ms name = some (.str u) → ¬ EndsIn 0xFEFF u :=
      fun name hname u hu h => hend ⟨name, hname, u, hu, h⟩
    have hoptional : ∀ name ∈ TEXT_KEYS, ∀ x, Optional (lastOf ms name) x →
        ∀ u ∈ x, ¬ EndsIn 0xFEFF u := by
      rintro name hname x hx u rfl
      exact hfree name hname u hx
    obtain ⟨a, b, ha, hb, hper, htotal, hle⟩ := hsound.amounts
    obtain ⟨expiry, hexpiry, hexpiryText⟩ := slot_present.mpr
      ⟨hstated.expiry, hpresent _ (by decide), hsound.expiry⟩
    obtain ⟨valid, hvalid, hvalidText⟩ := slot_present.mpr
      ⟨hstated.validUntil, hpresent _ (by decide), hsound.validUntil⟩
    have hparties := (parties_eq_ok hsound.role.mem).mpr ⟨hstated.recipient, hstated.agent,
      hpresent _ (by decide), hpresent _ (by decide), hsound.role⟩
    simp only [parseMandateRequestPayload, bind_eq_ok, okOr_eq_ok, ensure_eq_ok, exists_unit,
      pure_eq_ok, oneOf_eq_ok, canonicalAddress_eq_ok, boundedText_eq_ok,
      boundedText_present, u64String_eq_ok, plainObject_eq_some, refuseExtra_eq_ok,
      Option.filter_eq_some_iff]
    refine ⟨ms, rfl, hknown ms rfl, hsound.version ▸ hstated.version, p.cluster,
      ⟨hstated.cluster, hsound.cluster⟩, p.role, ⟨hstated.role, hsound.role.mem⟩,
      p.tokenProgram, ⟨hstated.tokenProgram, hsound.tokenProgram⟩, p.requester,
      ⟨hstated.requester, hsound.requester⟩, p.mint, ⟨hstated.mint, hsound.mint⟩, _, hparties,
      p.requesterName, ⟨hstated.requesterName, hpresent _ (by decide), fun u hu =>
        ⟨hsound.requesterName u hu, hoptional _ (by decide) _ hstated.requesterName u hu⟩⟩,
      p.description, ⟨hstated.description, hsound.description,
        hfree _ (by decide) _ hstated.description⟩,
      p.poNumber, ⟨hstated.poNumber, hpresent _ (by decide), fun u hu =>
        ⟨hsound.poNumber u hu, hoptional _ (by decide) _ hstated.poNumber u hu⟩⟩,
      p.nonce, ⟨hstated.nonce, hsound.nonce, hfree _ (by decide) _ hstated.nonce⟩,
      (p.suggestedMaxPerPayment, decimalValue a), ⟨hstated.perPayment, a, ha, hper, rfl⟩,
      (p.suggestedTotal, decimalValue b), ⟨hstated.total, b, hb, htotal, rfl⟩, hle,
      p.decimals, ⟨hstated.decimals, decide_eq_true hsound.decimals⟩, expiry, hexpiry, valid,
      hvalid, ?_⟩
    rw [hexpiryText, hvalidText, ← hsound.version]

end

/-! ## The relay's reader -/

theorem serdeByte_iff {o : Option Doc} {k : Nat} : serdeByte o = some k ↔
    k < 256 ∧ naturalOf o = some k ∧ ∀ n, o = some (.num n) → n.plain ≠ none := by
  rw [serdeByte_eq_some]
  constructor
  · rintro ⟨hk, n, rfl, hn⟩
    refine ⟨hk, ?_, ?_⟩
    · exact naturalOf_eq_some.mpr ⟨n, rfl, (Numeral.natural_of_plain hn (by omega)).mpr rfl⟩
    · intro m hm
      cases hm
      rw [hn]
      exact Option.some_ne_none k
  · rintro ⟨hk, hnat, hplain⟩
    obtain ⟨n, rfl, hn⟩ := naturalOf_eq_some.mp hnat
    obtain ⟨m, hm⟩ := Option.ne_none_iff_exists'.mp (hplain n rfl)
    rw [(Numeral.natural_of_plain hm (by omega)).mp hn] at hm
    exact ⟨hk, n, rfl, hm⟩

theorem serdeOption_iff {o : Option Doc} {x : Option (List Char)} :
    serdeOption o = some x ↔ Optional o (x.map points) := by
  rw [serdeOption_eq_some]
  cases x with
  | none => simp [Optional]
  | some s => simp [Optional]

theorem optionBind_eq_some {α β : Type} {x : Option α} {f : α → Option β} {b : β} :
    (x >>= f) = some b ↔ ∃ a, x = some a ∧ f a = some b := Option.bind_eq_some_iff

/-- **What the relay's reader takes.** -/
theorem Relay.readPayload_eq_some {r : Reading} {d : Doc}
    {q : MandateRequestPayload (List Char)} : Relay.readPayload r d = some q ↔
      Relay.payloadFields.Admits r d ∧ Stated (Relay.payloadFields.find d) (q.map points) ∧
        ¬ HasSpelling (Relay.payloadFields.find d) ∧ q.version < 256 ∧ q.decimals < 256 := by
  unfold Relay.readPayload
  by_cases hadmits : Relay.payloadFields.Admits r d
  · rw [if_pos hadmits]
    simp only [↓optionBind_eq_some, serdeByte_iff, serdeString_eq_some, serdeOption_iff]
    constructor
    · rintro ⟨version, ⟨hvlt, hversion, hvplain⟩, cluster, hcluster, role, hrole, requester,
        hrequester, name, hname, agent, hagent, mint, hmint, token, htoken, recipient, hrecipient,
        per, hper, total, htotal, decimals, ⟨hdlt, hdecimals, hdplain⟩, expiry, hexpiry, valid,
        hvalid, description, hdescription, po, hpo, nonce, hnonce, hq⟩
      cases hq
      refine ⟨hadmits, ⟨hversion, hcluster, hrole, hrequester, hname, hagent, hmint, htoken,
        hrecipient, hper, htotal, hdecimals, hexpiry, hvalid, hdescription, hpo, hnonce⟩, ?_,
        hvlt, hdlt⟩
      rintro ⟨name, hin, n, hn, hplain⟩
      simp only [List.mem_cons, List.not_mem_nil, or_false] at hin
      rcases hin with rfl | rfl
      · exact hvplain n hn hplain
      · exact hdplain n hn hplain
    · rintro ⟨-, h, hspelling, hvlt, hdlt⟩
      have hplain : ∀ name ∈ ["version", "decimals"], ∀ n,
          Relay.payloadFields.find d name = some (.num n) → n.plain ≠ none :=
        fun name hin n hn hnone => hspelling ⟨name, hin, n, hn, hnone⟩
      exact ⟨_, ⟨hvlt, h.version, hplain _ (by decide)⟩, _, h.cluster, _, h.role, _, h.requester,
        _, h.requesterName, _, h.agent, _, h.mint, _, h.tokenProgram, _, h.recipient, _,
        h.perPayment, _, h.total, _, ⟨hdlt, h.decimals, hplain _ (by decide)⟩, _, h.expiry, _,
        h.validUntil, _, h.description, _, h.poNumber, _, h.nonce, rfl⟩
  · simp [hadmits]

section

variable [PublicKey]

theorem isKey_points {t : List Char} : IsKey (points t) ↔ IsAddress t := by
  constructor
  · rintro ⟨s, hs, h⟩
    rwa [points_injective hs]
  · intro h
    exact ⟨t, rfl, h⟩

omit [PublicKey] in
theorem isAmountText_points {t : List Char} : IsAmountText (points t) ↔ IsAmount t := by
  constructor
  · rintro ⟨s, hs, h⟩
    rwa [points_injective hs]
  · intro h
    exact ⟨t, rfl, h⟩

omit [PublicKey] in
theorem Relay.transpose_slot {value : Option (List Char)} (name : String) :
    (∃ a, Relay.transpose value (fun s => Relay.u64String s name true) = .ok a) ↔
      ∀ u ∈ value.map points, IsAmountText u := by
  cases value with
  | none => simp [Relay.transpose]
  | some s =>
    rw [Option.map_some, show (∀ u ∈ some (points s), IsAmountText u) ↔ IsAmountText (points s) by
      simp, isAmountText_points]
    constructor
    · rintro ⟨a, ha⟩
      cases hcheck : Relay.u64String s name true with
      | error e => simp [Relay.transpose, hcheck, Except.map] at ha
      | ok n => exact (Relay.u64String_eq_ok.mp hcheck).1
    · intro h
      have hcheck : Relay.u64String s name true = .ok (decimalValue s) :=
        Relay.u64String_eq_ok.mpr ⟨h, rfl⟩
      exact ⟨some (decimalValue s), by simp only [Relay.transpose, hcheck, Except.map]⟩

theorem isKey_of_decode {t : List Char} {key : Bytes}
    (h : PublicKey.ofText t = some key ∧ PublicKey.toBase58 key = t) : IsKey (points t) :=
  isKey_points.mpr ⟨key, h⟩

/-- The role rules of the relay, for which a missing address is the empty text. -/
theorem Relay.checkParties_eq_ok (hempty : PublicKey.ofText [] = none)
    {q : MandateRequestPayload (List Char)} : Relay.checkParties q = .ok () ↔
      Roles (points q.role) (q.recipient.map points) (q.agent.map points) := by
  have haddress : ∀ (x : Option (List Char)) (name : String),
      (∃ bytes, Relay.decodeAddress (x.getD []) name = .ok bytes) ↔
        ∃ u, x.map points = some u ∧ IsKey u := by
    intro x name
    cases x with
    | none => simp [Relay.decodeAddress_eq_ok, hempty]
    | some t =>
      constructor
      · rintro ⟨bytes, h⟩
        exact ⟨points t, rfl, isKey_of_decode (Relay.decodeAddress_eq_ok.mp h)⟩
      · rintro ⟨u, hu, hkey⟩
        cases hu
        obtain ⟨bytes, h⟩ := isKey_points.mp hkey
        exact ⟨bytes, Relay.decodeAddress_eq_ok.mpr h⟩
  have hnone : ∀ x : Option (List Char), x.isNone = true ↔ x.map points = none := by
    intro x
    rw [Option.isNone_iff_eq_none, Option.map_eq_none_iff]
  have hkey : ∀ name : String, q.role = name.toList ↔ points q.role = key name :=
    fun name => points_injective.eq_iff.symm
  unfold Relay.checkParties Roles
  have hne : key "grantee" ≠ key "vendor" := fun h => absurd (key_injective h) (by decide)
  by_cases hv : q.role = "vendor".toList
  · have hvendor := (hkey _).mp hv
    simp only [if_pos hv, ↓bind_eq_ok, ensure_eq_ok, hvendor, hne.symm, true_and, false_and,
      or_false, hnone, ← haddress q.recipient "recipient", exists_and_right]
  · have hvendor : points q.role ≠ key "vendor" := fun h => hv ((hkey _).mpr h)
    by_cases hg : q.role = "grantee".toList
    · have hgrantee := (hkey _).mp hg
      simp only [if_neg hv, if_pos hg, ↓bind_eq_ok, ensure_eq_ok, hgrantee, hne, true_and,
        false_and, false_or, hnone, ← haddress q.agent "agent", exists_and_right]
    · have hgrantee : points q.role ≠ key "grantee" := fun h => hg ((hkey _).mpr h)
      simp only [if_neg hv, if_neg hg, hvendor, hgrantee, false_and, or_false, reduceCtorEq]

/-- **What the relay's checks take.** -/
theorem Relay.checkFields_eq_ok (hempty : PublicKey.ofText [] = none)
    {q : MandateRequestPayload (List Char)} {requester : Bytes} (hdecimals : q.decimals < 256) :
    Relay.checkFields q = .ok requester ↔
      Sound (q.map points) ∧ PublicKey.ofText q.requester = some requester ∧
        (∀ u ∈ q.requesterName, ¬ EndsIn 0x85 (points u)) ∧ ¬ EndsIn 0x85 (points q.description) ∧
        (∀ u ∈ q.poNumber, ¬ EndsIn 0x85 (points u)) ∧ ¬ EndsIn 0x85 (points q.nonce) := by
  simp only [Relay.checkFields, ↓bind_eq_ok, ensure_eq_ok, exists_unit, pure_eq_ok,
    Relay.decodeAddress_eq_ok, Relay.boundedText_some, Relay.boundedText_optional,
    Relay.u64String_eq_ok, Relay.checkParties_eq_ok hempty]
  have hmem : ∀ {t : List Char} {x y : String}, (t = x.toList ∨ t = y.toList) ↔
      points t ∈ [x, y].map key := by
    intro t x y
    simp only [List.map_cons, List.map_nil, List.mem_cons, List.not_mem_nil, or_false, key,
      points_injective.eq_iff]
  have hoptional : ∀ {x : Option (List Char)} {n : Nat}, (∀ u ∈ x, Tidy n (points u)) →
      ∀ u ∈ x.map points, Tidy n u := by
    intro x n hx u hu
    obtain ⟨t, ht, rfl⟩ := Option.map_eq_some_iff.mp hu
    exact hx t ht
  constructor
  · rintro ⟨hversion, hcluster, htoken, key, hkey, mint, hmint, hroles, hname, hdescription, hpo,
      hnonce, a, ⟨hper, rfl⟩, b, ⟨htotal, rfl⟩, hle, expiry, hexpiry, valid, hvalid, rfl⟩
    refine ⟨⟨hversion, hmem.mp hcluster, hmem.mp htoken, isKey_of_decode hkey,
      isKey_of_decode hmint, hroles, hoptional fun u hu => (hname u hu).1, hdescription.1,
      hoptional fun u hu => (hpo u hu).1, hnonce.1, ⟨_, _, rfl, rfl, hper, htotal, hle⟩,
      Nat.le_of_lt_succ hdecimals, (Relay.transpose_slot _).mp ⟨expiry, hexpiry⟩,
      (Relay.transpose_slot _).mp ⟨valid, hvalid⟩⟩, hkey.1, fun u hu => (hname u hu).2,
      hdescription.2, fun u hu => (hpo u hu).2, hnonce.2⟩
  · rintro ⟨h, hkey, hname, hdescription, hpo, hnonce⟩
    obtain ⟨a, b, ha, hb, hper, htotal, hle⟩ := h.amounts
    cases points_injective ha
    cases points_injective hb
    obtain ⟨signer, hkeyText⟩ := isKey_points.mp h.requester
    cases hkeyText.1.symm.trans hkey
    obtain ⟨mint, hmint⟩ := isKey_points.mp h.mint
    obtain ⟨expiry, hexpiry⟩ := (Relay.transpose_slot "suggestedExpirySlot").mpr h.expiry
    obtain ⟨valid, hvalid⟩ := (Relay.transpose_slot "validUntilSlot").mpr h.validUntil
    exact ⟨h.version, hmem.mpr h.cluster, hmem.mpr h.tokenProgram, requester, hkeyText, mint,
      hmint,
      h.role, fun u hu => ⟨h.requesterName _ (Option.mem_map_of_mem _ hu), hname u hu⟩,
      ⟨h.description, hdescription⟩,
      fun u hu => ⟨h.poNumber _ (Option.mem_map_of_mem _ hu), hpo u hu⟩, ⟨h.nonce, hnonce⟩,
      _, ⟨hper, rfl⟩, _, ⟨htotal, rfl⟩, hle, expiry, hexpiry, valid, hvalid, rfl⟩

end

/-! ## Texts without lone surrogates -/

/-- The text as Rust holds it. -/
def rustText (u : JsText) : List Char := (chars u).getD []

theorem points_rustText {u : JsText} {s : List Char} (h : u = points s) :
    points (rustText u) = u := by
  rw [rustText, h, chars_points, Option.getD_some]

theorem points_of_chars {u : JsText} (h : chars u ≠ none) : points (rustText u) = u := by
  obtain ⟨s, hs⟩ := Option.ne_none_iff_exists'.mp h
  exact points_rustText (chars_eq_some.mp hs)

theorem map_rustText {x : Option JsText} (h : ∀ u ∈ x, points (rustText u) = u) :
    (x.map rustText).map points = x := by
  cases x with
  | none => rfl
  | some u => exact congrArg some (h u rfl)

theorem points_of_key {u : JsText} {names : List String} (h : u ∈ names.map key) :
    points (rustText u) = u := by
  obtain ⟨name, -, rfl⟩ := List.mem_map.mp h
  exact points_rustText rfl

theorem points_of_amount {u : JsText} (h : IsAmountText u) : points (rustText u) = u := by
  obtain ⟨t, rfl, -⟩ := h
  exact points_rustText rfl

section

variable [PublicKey]

theorem points_of_isKey {u : JsText} (h : IsKey u) : points (rustText u) = u := by
  obtain ⟨t, rfl, -⟩ := h
  exact points_rustText rfl

/-- A sound payload without lone surrogates is one that Rust can hold. -/
theorem map_rustText_payload {get : String → Option Doc} {p : MandateRequestPayload JsText}
    (hstated : Stated get p) (hsound : Sound p) (hlone : ¬ HasLone get) :
    (p.map rustText).map points = p := by
  have hfree : ∀ name ∈ TEXT_KEYS, ∀ u, get name = some (.str u) → points (rustText u) = u :=
    fun name hname u hu => points_of_chars fun hnone => hlone ⟨name, hname, u, hu, hnone⟩
  have hoptional : ∀ name ∈ TEXT_KEYS, ∀ x, Optional (get name) x →
      (x.map rustText).map points = x := by
    intro name hname x hx
    refine map_rustText fun u hu => hfree name hname u ?_
    cases hu
    exact hx
  have hroles : (p.recipient.map rustText).map points = p.recipient ∧
      (p.agent.map rustText).map points = p.agent := by
    rcases hsound.role with ⟨-, ⟨u, hu, hkey⟩, hnone⟩ | ⟨-, ⟨u, hu, hkey⟩, hnone⟩
    · exact ⟨by rw [hu]; exact congrArg some (points_of_isKey hkey), by rw [hnone]; rfl⟩
    · exact ⟨by rw [hnone]; rfl, by rw [hu]; exact congrArg some (points_of_isKey hkey)⟩
  obtain ⟨a, b, ha, hb, -⟩ := hsound.amounts
  have hrole := points_of_key hsound.role.mem
  have hexpiry := map_rustText fun u hu => points_of_amount (hsound.expiry u hu)
  have hvalid := map_rustText fun u hu => points_of_amount (hsound.validUntil u hu)
  cases p
  simp only [MandateRequestPayload.map, MandateRequestPayload.mk.injEq, true_and]
  exact ⟨points_of_key hsound.cluster, hrole, points_of_isKey hsound.requester,
    hoptional _ (by decide) _ hstated.requesterName, hroles.2, points_of_isKey hsound.mint,
    points_of_key hsound.tokenProgram, hroles.1, points_rustText ha, points_rustText hb,
    hexpiry, hvalid, hfree _ (by decide) _ hstated.description,
    hoptional _ (by decide) _ hstated.poNumber, hfree _ (by decide) _ hstated.nonce⟩

end

/-- Both languages write one payload with the same bytes. -/
theorem canonical_points (q : MandateRequestPayload (List Char)) :
    encodeUtf8 (canonicalMandateRequest (q.map points)) = Relay.canonicalMandateRequest q := by
  have hoptional : ∀ (name : String) (x : Option (List Char)),
      optionalMember quotePoints name (x.map points) = optionalMember quoteText name x := by
    intro name x
    cases x with
    | none => rfl
    | some s => exact congrArg (fun t => [member name t]) (quotePoints_points s)
  simp only [canonicalMandateRequest, Relay.canonicalMandateRequest, MandateRequestPayload.map,
    quotePoints_points, hoptional]

/-! ## Signatures -/

theorem base64UrlToBytes_eq_some {u : JsText} {sig : Bytes} : base64UrlToBytes u = some sig ↔
    ∃ ns : List Nat, (∀ n ∈ ns, n < 64) ∧ u = points (ns.map urlChar) ∧ ofSextets ns = some sig := by
  have hread : ∀ ns : List Nat, (∀ n ∈ ns, n < 64) → ns.length % 4 ≠ 1 →
      atob (replaceAll '_' '/' (replaceAll '-' '+' (ns.map urlChar)) ++ padding ns.length) =
        ofSextets ns := by
    intro ns hlt hlen
    have hmap : replaceAll '_' '/' (replaceAll '-' '+' (ns.map urlChar)) = ns.map base64Char := by
      simp only [replaceAll, List.map_map]
      exact List.map_congr_left fun n hn => (urlChar_facts (hlt n hn)).2.2.2
    rw [hmap, atob_padded hlt hlen]
  constructor
  · intro h
    rw [base64UrlToBytes, optionBind_eq_some] at h
    obtain ⟨t, ht, h⟩ := h
    split at h
    · rename_i hform
      obtain ⟨ns, hlt, rfl⟩ := all_isUrlChar_iff.mp hform.1
      have hlen : ns.length % 4 ≠ 1 := by
        have hmod := hform.2
        rwa [List.length_map] at hmod
      rw [List.length_map, hread ns hlt hlen] at h
      exact ⟨ns, hlt, chars_eq_some.mp ht, h⟩
    · cases h
  · rintro ⟨ns, hlt, rfl, hsig⟩
    have hlen : ns.length % 4 ≠ 1 := by
      intro hone
      cases hsig.symm.trans (ofSextets_eq_none.mpr hone)
    rw [base64UrlToBytes, chars_points]
    change (if (ns.map urlChar).all isUrlChar = true ∧ (ns.map urlChar).length % 4 ≠ 1 then
      atob _ else none) = _
    rw [if_pos ⟨all_isUrlChar_iff.mpr ⟨ns, hlt, rfl⟩, by rwa [List.length_map]⟩, List.length_map,
      hread ns hlt hlen, hsig]

theorem strictUrl_iff {t : List Char} {sig : Bytes} : strictUrl t = some sig ↔
    ∃ ns : List Nat, (∀ n ∈ ns, n < 64) ∧ t = ns.map urlChar ∧ ofSextets ns = some sig ∧
      spareBits ns = 0 := by
  constructor
  · intro h
    exact ⟨sextets sig, sextets_lt sig, strictUrl_eq_some.mp h, ofSextets_sextets sig,
      spareBits_sextets sig⟩
  · rintro ⟨ns, hlt, rfl, hsig, hspare⟩
    rw [strictUrl_map hlt, if_pos hspare, hsig]

end ChainPay.Requests
