import ChainPay.Checkout.Order

/-!
Terms that checkout accepts are what the order charges: the prepared transaction holds one transfer
and one memo and nothing else, the quoted total is that amount, each line of the body is bound with
what it states, and a memo that the relay can read names the same order.
-/

namespace ChainPay.Checkout
open ChainPay.Lib ChainPay.Lib.Wire

/-! ## Decimals -/

/-- A decimal text and the number it denotes. -/
def Denotes (text : List Char) (q : Rat) : Prop :=
  ∃ whole digits : List Char, whole ≠ [] ∧ (∀ c ∈ whole ++ digits, isDecimalDigit c = true) ∧
    text = whole ++ (if digits = [] then [] else '.' :: digits) ∧
    q = decimalValue (whole ++ digits) / 10 ^ digits.length

theorem decimalParts_eq_some {text whole digits : List Char}
    (h : decimalParts text = some (whole, digits)) :
    whole ≠ [] ∧ (∀ c ∈ whole ++ digits, isDecimalDigit c = true) ∧
      text = whole ++ (if digits = [] then [] else '.' :: digits) := by
  unfold decimalParts at h
  dsimp only at h
  have hwhole : ∀ c ∈ text.takeWhile isDecimalDigit, isDecimalDigit c = true :=
    fun c hc => List.mem_takeWhile_imp hc
  have htext : text = text.takeWhile isDecimalDigit ++
      text.drop (text.takeWhile isDecimalDigit).length :=
    (List.prefix_iff_eq_append.mp (List.takeWhile_prefix _)).symm
  split at h
  · cases h
  · rename_i hne
    split at h
    · rename_i hrest
      cases h
      rw [hrest] at htext
      exact ⟨hne, by simpa using hwhole, by simpa using htext⟩
    · rename_i ds hrest
      split at h
      · rename_i hds
        cases h
        rw [hrest] at htext
        refine ⟨hne, ?_, by rw [if_neg hds.1]; exact htext⟩
        intro c hc
        rcases List.mem_append.mp hc with hc | hc
        · exact hwhole c hc
        · exact List.all_eq_true.mp hds.2 c hc
      · cases h
    · cases h

theorem decimalValue_zeros (s : List Char) (k : Nat) :
    decimalValue (s ++ List.replicate k '0') = decimalValue s * 10 ^ k := by
  induction k with
  | zero => simp
  | succ k ih =>
    rw [List.replicate_succ', ← List.append_assoc, decimalValue, List.foldl_append]
    change 10 * decimalValue (s ++ List.replicate k '0') + 0 = _
    rw [ih, Nat.pow_succ]
    ring

/-- Digits that are cut or filled up to a length, where only zeros are cut. -/
theorem padded_value {whole digits : List Char} {decimals : Nat}
    (h : ¬ (decimals < digits.length ∧ (digits.drop decimals).all (· = '0') = false)) :
    (decimalValue (whole ++ (digits ++ List.replicate decimals '0').take decimals) : Rat) /
        10 ^ decimals =
      decimalValue (whole ++ digits) / 10 ^ digits.length := by
  have hten : ∀ k : Nat, (10 : Rat) ^ k ≠ 0 := fun k => pow_ne_zero _ (by norm_num)
  rw [div_eq_div_iff (hten _) (hten _)]
  by_cases hlong : decimals < digits.length
  · have hzeros : (digits.drop decimals).all (· = '0') = true := by
      by_contra hnot
      exact h ⟨hlong, by simpa using hnot⟩
    have hdrop : digits.drop decimals = List.replicate (digits.length - decimals) '0' := by
      rw [List.eq_replicate_iff, List.length_drop]
      exact ⟨rfl, fun c hc => of_decide_eq_true (List.all_eq_true.mp hzeros c hc)⟩
    have hvalue := decimalValue_zeros (whole ++ digits.take decimals) (digits.length - decimals)
    rw [← hdrop, List.append_assoc, List.take_append_drop] at hvalue
    have hpow : 10 ^ digits.length = 10 ^ (digits.length - decimals) * 10 ^ decimals := by
      rw [← Nat.pow_add, Nat.sub_add_cancel (by omega)]
    rw [List.take_append_of_le_length (by omega), hvalue]
    have hcast : (10 : Rat) ^ digits.length =
        10 ^ (digits.length - decimals) * 10 ^ decimals := by exact_mod_cast hpow
    rw [hcast]
    push_cast
    ring
  · have htake : (digits ++ List.replicate decimals '0').take decimals =
        digits ++ List.replicate (decimals - digits.length) '0' := by
      rw [List.take_append, List.take_of_length_le (by omega), List.take_replicate,
        min_eq_left (by omega)]
    have hpow : 10 ^ decimals = 10 ^ (decimals - digits.length) * 10 ^ digits.length := by
      rw [← Nat.pow_add, Nat.sub_add_cancel (by omega)]
    have hcast : (10 : Rat) ^ decimals =
        10 ^ (decimals - digits.length) * 10 ^ digits.length := by exact_mod_cast hpow
    rw [htake, ← List.append_assoc, decimalValue_zeros, hcast]
    push_cast
    ring

/-- **A scaled decimal is exact.** -/
theorem scaleDecimalString_denotes {value : JsText} {decimals units : Nat}
    (h : scaleDecimalString value decimals = some units) :
    ∃ text, trimPoints value = points text ∧ Denotes text (units / 10 ^ decimals) := by
  unfold scaleDecimalString at h
  split at h
  · cases h
  · obtain ⟨text, htext, h⟩ := Option.bind_eq_some_iff.mp h
    obtain ⟨⟨whole, digits⟩, hparts, h⟩ := Option.bind_eq_some_iff.mp h
    dsimp only at h
    split at h
    · cases h
    · rename_i hzeros
      cases h
      obtain ⟨hne, hdigits, hsplit⟩ := decimalParts_eq_some hparts
      exact ⟨text, chars_eq_some.mp htext, whole, digits, hne, hdigits, hsplit,
        padded_value hzeros⟩

/-! ## Fields of the body -/

/-- What stands under names that lead into a document. -/
def path (names : List String) (d : Doc) : Option Doc :=
  names.foldl (fun v name => member name v) (some d)

theorem member_optionalRecord (name : String) (value : Option Doc) :
    member name (optionalRecord value) = member name value := by
  cases value with
  | none => rfl
  | some d => cases d <;> rfl

theorem optionalString_eq_some {value : Option Doc} {max : Nat} {t : JsText}
    (h : optionalString value max = some t) :
    ∃ u, value = some (.str u) ∧ trimPoints u = t ∧ t ≠ [] := by
  obtain ⟨u, hu, h⟩ := Option.bind_eq_some_iff.mp h
  dsimp only at h
  split at h
  · cases h
  · rename_i hne
    cases h
    exact ⟨u, textOf_eq_some.mp hu, rfl, fun hnil => hne (.inl hnil)⟩

theorem quoteTotal_eq_some {d : Doc} {p : Price} (h : quoteTotal (some d) = some p) :
    ∃ u, path ["quote", "totalPrice", "amount"] d = some (.str u) ∧ trimPoints u = p.amount := by
  obtain ⟨amount, hamount, h⟩ := Option.bind_eq_some_iff.mp h
  cases h
  obtain ⟨u, hu, htrim, -⟩ := optionalString_eq_some hamount
  simp only [member_optionalRecord] at hu
  exact ⟨u, hu, htrim⟩

/-! ## Lines -/

/-- Some field states the value, and none states anything else. -/
def Unanimous {α : Type} (Reads : Doc → α → Prop) (fields : List (Option Doc)) (a : α) : Prop :=
  fields.filterMap stated ≠ [] ∧ ∀ v ∈ fields.filterMap stated, Reads v a

theorem agreement_eq_value {α : Type} [DecidableEq α] {read : Doc → Option α}
    {fields : List (Option Doc)} {a : α} (h : agreement read fields = .value a) :
    Unanimous (fun v a => read v = some a) fields a := by
  unfold agreement at h
  dsimp only at h
  split at h
  · cases h
  · rename_i hnone
    unfold agreed at h
    split at h
    · cases h
    · rename_i v vs hread
      split at h
      · rename_i hall
        cases h
        refine ⟨?_, ?_⟩
        · intro hnil
          rw [hnil] at hread
          cases hread
        · intro w hw
          cases hw' : read w with
          | none => exact absurd (List.mem_map.mpr ⟨w, hw, hw'⟩) hnone
          | some b =>
            have hb : b ∈ a :: vs := by
              rw [← hread]
              exact List.mem_filterMap.mpr ⟨w, hw, hw'⟩
            rw [of_decide_eq_true (List.all_eq_true.mp hall b hb)]
      · cases h

/-- A count as a document states it. -/
def IsCount (v : Doc) (q : Nat) : Prop :=
  0 < q ∧ ((∃ n : Numeral, v = .num n ∧ n.value = some (q : Rat)) ∨
    ∃ u text, v = .str u ∧ trimPoints u = points text ∧ text ≠ [] ∧
      (∀ c ∈ text, isDecimalDigit c = true) ∧ decimalValue text = q)

theorem positiveInteger_eq_some {v : Doc} {q : Nat} (h : positiveInteger v = some q) :
    IsCount v q := by
  unfold positiveInteger at h
  rw [Option.filter_eq_some_iff] at h
  obtain ⟨h, hpos⟩ := h
  refine ⟨of_decide_eq_true hpos, ?_⟩
  cases v with
  | str u =>
    right
    obtain ⟨text, htext, h⟩ := Option.bind_eq_some_iff.mp h
    split at h
    · rename_i hdigits
      cases h
      exact ⟨u, text, rfl, chars_eq_some.mp htext, hdigits.1,
        fun c hc => List.all_eq_true.mp hdigits.2.2 c hc, rfl⟩
    · cases h
  | num n =>
    left
    exact ⟨n, rfl, Numeral.natural_eq_some.mp (Option.filter_eq_some_iff.mp h).1⟩
  | null => cases h
  | bool b => cases h
  | arr vs => cases h
  | obj ms => cases h

/-- A wallet as a document states it: the address itself, or a locator of it. -/
def IsWallet (v : Doc) (w : JsText) : Prop :=
  (∃ k : Key, address k = w) ∧ w ≠ DEFAULT_ADDRESS ∧
    ∃ u, v = .str u ∧ (trimPoints u = w ∨ trimPoints u = key "solana:" ++ w)

theorem walletCandidate_eq_some {text w : JsText} (h : walletCandidate text = some w) :
    text = w ∨ text = key "solana:" ++ w := by
  unfold walletCandidate at h
  split at h
  · rename_i hcolon
    split at h
    · rename_i hsolana
      cases h
      right
      have hsplit := List.takeWhile_append_dropWhile (p := (· ≠ CodePoint.char ':')) (l := text)
      have hne : text.dropWhile (· ≠ CodePoint.char ':') ≠ [] := by
        intro hnil
        have := List.dropWhile_eq_nil_iff.mp hnil _ hcolon
        simp at this
      have hhead : (text.dropWhile (· ≠ CodePoint.char ':')).head hne = .char ':' := by
        have := List.head_dropWhile_not (p := (· ≠ CodePoint.char ':')) hne
        simpa using this
      have hcons := List.cons_head_tail hne
      rw [hhead] at hcons
      rw [hsolana, ← hcons] at hsplit
      rw [← hsplit]
      rfl
    · cases h
  · cases h
    exact .inl rfl

/-- A line of the body and the item it is bound as: a readable name, and one quantity and one
wallet, which every field that states it agrees on. -/
structure Bound (line : Doc) (item : CrossmintBoundItem) : Prop where
  name : ∃ u, path ["metadata", "name"] line = some (.str u) ∧ trimPoints u ≠ [] ∧
    item.name = some (trimPoints u)
  quantity : ∃ q, item.quantity = some q ∧ Unanimous IsCount
    [path ["quantity"] line, path ["callData", "quantity"] line,
      path ["executionParams", "quantity"] line] q
  wallet : ∃ w, item.deliveryRecipient = some w ∧ Unanimous IsWallet
    [path ["delivery", "recipient", "walletAddress"] line,
      path ["delivery", "recipient", "locator"] line] w

theorem Agreed.toOption_isSome {α : Type} {x : Agreed α} (h : x.toOption.isSome = true) :
    ∃ a, x = .value a := by
  cases x with
  | value a => exact ⟨a, rfl⟩
  | absent => cases h
  | conflict => cases h

theorem statedString_toOption {value : Option Doc} {max : Nat}
    (h : (statedString value max).toOption.isSome = true) :
    ∃ u, value = some (.str u) ∧ trimPoints u ≠ [] ∧
      (statedString value max).toOption = some (trimPoints u) := by
  unfold statedString at h ⊢
  cases hstated : stated value with
  | none =>
    rw [hstated] at h
    cases h
  | some v =>
    rw [hstated] at h
    dsimp only at h ⊢
    have hv : value = some v := by
      unfold stated at hstated
      split at hstated
      · cases hstated
      · exact hstated
    cases htext : optionalString (some v) max with
    | none =>
      rw [htext] at h
      cases h
    | some t =>
      obtain ⟨u, hu, htrim, hne⟩ := optionalString_eq_some htext
      refine ⟨u, hv.trans hu, ?_, ?_⟩
      · rw [htrim]
        exact hne
      · rw [htrim]
        rfl

theorem forall₂_filterMap {α β : Type} {f : α → Option β} {as : List α}
    (h : (as.filterMap f).length = as.length) :
    List.Forall₂ (fun a b => f a = some b) as (as.filterMap f) := by
  induction as with
  | nil => exact .nil
  | cons a as ih =>
    cases ha : f a with
    | none =>
      have hle := List.length_filterMap_le f as
      rw [List.filterMap_cons_none ha, List.length_cons] at h
      omega
    | some b =>
      rw [List.filterMap_cons_some ha, List.length_cons, List.length_cons] at h
      rw [List.filterMap_cons_some ha]
      exact .cons ha (ih (by omega))

theorem elements_ne_nil {value : Option Doc} (h : elements value ≠ []) :
    value = some (.arr (elements value)) := by
  unfold elements at h ⊢
  split
  · rfl
  · rename_i hnot
    split at h
    · rename_i vs
      exact absurd rfl (hnot vs)
    · exact absurd rfl h

section

variable [Web3]

theorem solanaWallet_eq_some {v : Doc} {w : JsText} (h : solanaWallet v = some w) :
    IsWallet v w := by
  obtain ⟨text, htext, h⟩ := Option.bind_eq_some_iff.mp h
  obtain ⟨candidate, hcandidate, h⟩ := Option.bind_eq_some_iff.mp h
  obtain ⟨cs, -, h⟩ := Option.bind_eq_some_iff.mp h
  obtain ⟨k, -, h⟩ := Option.bind_eq_some_iff.mp h
  split at h
  · rename_i hk
    cases h
    obtain ⟨u, hu, htrim, -⟩ := optionalString_eq_some htext
    refine ⟨⟨k, hk.2.1⟩, hk.2.2, u, Option.some.inj hu, ?_⟩
    rw [htrim]
    exact walletCandidate_eq_some hcandidate
  · cases h

theorem lineItem_bound {line : Doc} {item : CrossmintLineItem} (h : lineItem line = some item)
    (hname : item.name.isSome = true) (hquantity : item.quantity.toOption.isSome = true)
    (hwallet : item.deliveryRecipient.toOption.isSome = true) : Bound line (boundItem item) := by
  obtain ⟨record, hrecord, h⟩ := Option.bind_eq_some_iff.mp h
  have hline : record = line := (Option.some.inj (Option.filter_eq_some_iff.mp hrecord).1).symm
  cases h
  subst hline
  dsimp only at hname hquantity hwallet
  obtain ⟨q, hq⟩ := Agreed.toOption_isSome hquantity
  obtain ⟨w, hw⟩ := Agreed.toOption_isSome hwallet
  obtain ⟨u, hu, hne, hbound⟩ := statedString_toOption hname
  have hcount := agreement_eq_value hq
  have hplace := agreement_eq_value hw
  simp only [member_optionalRecord] at hu hcount hplace
  refine ⟨⟨u, hu, hne, hbound⟩, ⟨q, ?_, hcount.1, ?_⟩, ⟨w, ?_, hplace.1, ?_⟩⟩
  · exact congrArg Agreed.toOption hq
  · exact fun v hv => positiveInteger_eq_some (hcount.2 v hv)
  · exact congrArg Agreed.toOption hw
  · exact fun v hv => solanaWallet_eq_some (hplace.2 v hv)

/-- **Every line is bound, in order.** -/
theorem requireBindableItems_bound {order : CrossmintOrderSummary} {value : Option Doc}
    (hitems : order.lineItems = (lineItems value).1) (hcount : order.lineItemCount = (lineItems value).2)
    (h : requireBindableItems order = .ok ()) :
    ∃ lines, value = some (.arr lines) ∧ List.Forall₂ Bound lines (order.lineItems.map boundItem) := by
  unfold requireBindableItems at h
  obtain ⟨_, hsize, h⟩ := bind_eq_ok.mp h
  obtain ⟨hne, hmax, hlen⟩ := ensure_eq_ok.mp hsize
  rw [forM_eq_ok] at h
  have hlines : elements value ≠ [] := by
    intro hnil
    rw [hcount, lineItems, hnil] at hne
    exact hne rfl
  have htake : (elements value).take MAX_LINE_ITEM_LOCATORS = elements value := by
    rw [hcount] at hmax
    exact List.take_of_length_le hmax
  have hread : order.lineItems = (elements value).filterMap lineItem := by
    rw [hitems, lineItems, htake]
  have hall : List.Forall₂ (fun v item => lineItem v = some item) (elements value)
      ((elements value).filterMap lineItem) := forall₂_filterMap (by
    rw [← hread, hlen, hcount]
    rfl)
  have hchecks : ∀ line ∈ elements value, ∀ item, lineItem line = some item →
      Bound line (boundItem item) := by
    intro line hline item hitem
    have hcheck := h item (hread ▸ List.mem_filterMap.mpr ⟨line, hline, hitem⟩)
    simp only [bind_eq_ok, ensure_eq_ok, exists_unit] at hcheck
    obtain ⟨⟨hname, -⟩, -, hquantity, hwallet⟩ := hcheck
    exact lineItem_bound hitem hname hquantity hwallet
  refine ⟨elements value, elements_ne_nil hlines, ?_⟩
  rw [hread, List.forall₂_map_right_iff]
  exact ((List.forall₂_and_left _ _).mpr ⟨hchecks, hall⟩).imp
    fun line item hline => hline.1 item hline.2

/-! ## The transaction -/

/-- The bytes that a prepared transaction is written from. -/
def Spells (wire : JsText) (bytes : Bytes) : Prop :=
  wire = points (toBase58 bytes) ∨ base64Decode wire = some bytes

omit [Web3] in
theorem base58Decode_spells {wire : JsText} {bytes : Bytes} (h : base58Decode wire = some bytes) :
    wire = points (toBase58 bytes) := by
  obtain ⟨text, htext, h⟩ := Option.bind_eq_some_iff.mp h
  rw [toBase58_ofBase58 h]
  exact chars_eq_some.mp htext

omit [Web3] in
theorem base64Decode_btoa {bs : Bytes} (h : bs ≠ []) : base64Decode (points (btoa bs)) = some bs := by
  have hlt := sextets_lt bs
  have hbody : (btoa bs).takeWhile (· ≠ '=') = (sextets bs).map base64Char := by
    rw [btoa, List.takeWhile_append_of_pos]
    · simp
    · intro c hc
      obtain ⟨n, hn, rfl⟩ := List.mem_map.mp hc
      exact decide_eq_true (base64Char_facts (hlt n hn)).2.2
  have hpadding : (btoa bs).drop ((sextets bs).map base64Char).length =
      List.replicate ((3 - bs.length % 3) % 3) '=' := by
    rw [btoa, List.drop_left]
  have hne : (sextets bs).map base64Char ≠ [] := by
    cases bs with
    | nil => exact absurd rfl h
    | cons b bs => cases bs with
      | nil => exact List.cons_ne_nil _ _
      | cons c bs => cases bs <;> exact List.cons_ne_nil _ _
  have hmod := Nat.mod_lt bs.length (show 0 < 3 by decide)
  rw [base64Decode, Option.bind_eq_bind, chars_points, Option.bind_some]
  simp only [hbody, hpadding, mapM_base64Value hlt, Option.bind_eq_bind, Option.bind_some,
    List.length_replicate, List.all_replicate, hne, false_or]
  rw [if_neg, looseSextets_of_ofSextets (ofSextets_sextets bs)]
  simp
  omega

theorem deserializeWith_eq_some {decode : JsText → Option Bytes} {wire : JsText}
    {message : VersionedMessage} (h : deserializeWith decode wire = some message) :
    ∃ bytes, decode wire = some bytes ∧ Web3.deserialize bytes = some message := by
  obtain ⟨bytes, hbytes, h⟩ := Option.bind_eq_some_iff.mp h
  split at h
  · cases h
  · exact ⟨bytes, hbytes, h⟩

theorem deserializeCrossmintTransaction_eq_ok {wire : JsText} {message : VersionedMessage}
    (h : deserializeCrossmintTransaction wire = .ok message) :
    ∃ bytes, Spells wire bytes ∧ Web3.deserialize bytes = some message := by
  have h := okOr_eq_ok.mp h
  cases hfirst : deserializeWith base58Decode wire with
  | some first =>
    rw [hfirst] at h
    cases h
    obtain ⟨bytes, hbytes, hmessage⟩ := deserializeWith_eq_some hfirst
    exact ⟨bytes, .inl (base58Decode_spells hbytes), hmessage⟩
  | none =>
    rw [hfirst] at h
    obtain ⟨bytes, hbytes, hmessage⟩ := deserializeWith_eq_some h
    exact ⟨bytes, .inr hbytes, hmessage⟩

section

variable (m : VersionedMessage)

/-- The address that an instruction names by an index. -/
def addressAt (index : Nat) : Option JsText := m.staticAccountKeys[index]?.map address

/-- A `TransferChecked` of the SPL Token program, of a mint with six decimals. -/
structure IsTransfer (source mint recipient : JsText) (amount : Nat) (ix : CompiledInstruction) :
    Prop where
  program : addressAt m ix.programIdIndex = some SPL_TOKEN_PROGRAM_ID
  fits : amount < 2 ^ 64
  data : ix.data = SPL_TRANSFER_CHECKED_TAG :: (leBytes 8 amount ++ [6])
  accounts : ∃ i j k l, ix.accountKeyIndexes = [i, j, k, l] ∧ addressAt m i = some source ∧
    addressAt m j = some mint ∧ addressAt m k = some recipient

structure IsMemo (memo : List Char) (ix : CompiledInstruction) : Prop where
  program : addressAt m ix.programIdIndex = some MEMO_PROGRAM_ID
  data : ix.data = encodeUtf8 memo

/-- One transfer and one memo, in either order, and nothing else. -/
structure Charges (source mint recipient : JsText) (amount : Nat) (memo : List Char) : Prop where
  lookups : m.addressTableLookups = 0
  instructions : ∃ transfer note, IsTransfer m source mint recipient amount transfer ∧
    IsMemo m memo note ∧
    (m.compiledInstructions = [transfer, note] ∨ m.compiledInstructions = [note, transfer])

end

section

variable {m : VersionedMessage} {expected : ExpectedTerms} {ix : CompiledInstruction}

omit [Web3] in
theorem keyAt_eq_ok {index : Nat} {k : Key} (h : keyAt m index = .ok k) :
    addressAt m index = some (address k) := by
  rw [addressAt, okOr_eq_ok.mp h]
  rfl

omit [Web3] in
theorem canonicalAddress_eq_ok {k : Key} {a : JsText} (h : canonicalAddress k = .ok a) :
    address k = a := by
  obtain ⟨_, -, h⟩ := bind_eq_ok.mp h
  exact pure_eq_ok.mp h

omit [Web3] in
theorem accountAt_eq_ok {position : Nat} {a : JsText} (h : accountAt m ix position = .ok a) :
    ∃ index, ix.accountKeyIndexes[position]? = some index ∧ addressAt m index = some a := by
  obtain ⟨index, hindex, h⟩ := bind_eq_ok.mp h
  obtain ⟨k, hk, h⟩ := bind_eq_ok.mp h
  rw [← canonicalAddress_eq_ok h]
  exact ⟨index, okOr_eq_ok.mp hindex, keyAt_eq_ok hk⟩

/-- What is read off a `TransferChecked` of four accounts. -/
structure Moves (m : VersionedMessage) (programId : JsText) (ix : CompiledInstruction)
    (t : CrossmintTransferTerms) : Prop where
  length : ix.data.length = 10
  program : tokenProgramFrom programId = .ok t.tokenProgram
  amount : t.amount = points (decimal (ofLeBytes ((ix.data.drop 1).take 8)))
  decimals : t.decimals = (ix.data[9]?).map UInt8.toNat
  accounts : ∃ i j k l, ix.accountKeyIndexes = [i, j, k, l] ∧ addressAt m i = some t.source ∧
    addressAt m j = some t.mint ∧ addressAt m k = some t.recipient

omit [Web3] in
theorem decodeTransfer_strict {programId : JsText} {checked : Bool} {t : CrossmintTransferTerms}
    (hstrict : expected.strict = true)
    (h : decodeTransfer m expected programId ix checked = .ok t) :
    checked = true ∧ Moves m programId ix t := by
  obtain ⟨_, hlength, h⟩ := bind_eq_ok.mp h
  obtain ⟨_, -, h⟩ := bind_eq_ok.mp h
  obtain ⟨_, hshape, h⟩ := bind_eq_ok.mp h
  rw [ensure_eq_ok] at hlength hshape
  cases checked with
  | false => exact absurd ⟨hstrict, .inl rfl⟩ hshape
  | true =>
    refine ⟨rfl, ?_⟩
    have hfour : ix.accountKeyIndexes.length = 4 := by
      by_contra hne
      exact hshape ⟨hstrict, .inr hne⟩
    obtain ⟨_, -, h⟩ := bind_eq_ok.mp h
    obtain ⟨source, hsource, h⟩ := bind_eq_ok.mp h
    obtain ⟨recipient, hrecipient, h⟩ := bind_eq_ok.mp h
    obtain ⟨program, hprogram, h⟩ := bind_eq_ok.mp h
    obtain ⟨mint, hmint, h⟩ := bind_eq_ok.mp h
    cases pure_eq_ok.mp h
    obtain ⟨i, j, k, l, hkeys⟩ := List.length_eq_four.mp hfour
    obtain ⟨a, ha, hsource⟩ := accountAt_eq_ok hsource
    obtain ⟨b, hb, hrecipient⟩ := accountAt_eq_ok hrecipient
    obtain ⟨c, hc, hmint⟩ := accountAt_eq_ok hmint
    rw [hkeys] at ha hb hc
    cases ha
    cases hb
    cases hc
    exact ⟨hlength, hprogram, rfl, rfl, i, j, k, l, hkeys, hsource, hmint, hrecipient⟩

/-- What a strict reader finds in an instruction. -/
inductive Found (m : VersionedMessage) (ix : CompiledInstruction) : Decoded → Prop where
  | memo {note : Memo} (program : addressAt m ix.programIdIndex = some MEMO_PROGRAM_ID)
      (text : decodeMemoText ix.data = .ok note.text) : Found m ix (.memo note)
  | transfer {programId : JsText} {t : CrossmintTransferTerms}
      (program : addressAt m ix.programIdIndex = some programId)
      (tag : ix.data.head? = some SPL_TRANSFER_CHECKED_TAG)
      (moves : Moves m programId ix t) : Found m ix (.transfer t)

omit [Web3] in
theorem decodeInstruction_strict {d : Decoded} (hstrict : expected.strict = true)
    (h : decodeInstruction m expected ix = .ok d) : Found m ix d := by
  obtain ⟨k, hk, h⟩ := bind_eq_ok.mp h
  have hprogram := keyAt_eq_ok hk
  dsimp only at h
  split at h
  · rename_i hmemo
    obtain ⟨note, hnote, h⟩ := bind_eq_ok.mp h
    cases pure_eq_ok.mp h
    obtain ⟨_, -, hnote⟩ := bind_eq_ok.mp hnote
    obtain ⟨text, htext, hnote⟩ := bind_eq_ok.mp hnote
    obtain ⟨signers, -, hnote⟩ := bind_eq_ok.mp hnote
    cases pure_eq_ok.mp hnote
    rw [hmemo.2] at hprogram
    exact .memo hprogram htext
  · split at h
    · obtain ⟨_, hlax, -⟩ := bind_eq_ok.mp h
      rw [ensure_eq_ok, hstrict] at hlax
      cases hlax
    · split at h
      · obtain ⟨_, hlax, -⟩ := bind_eq_ok.mp h
        rw [ensure_eq_ok, hstrict] at hlax
        cases hlax
      · obtain ⟨t, ht, h⟩ := bind_eq_ok.mp h
        cases pure_eq_ok.mp h
        obtain ⟨hchecked, hmoves⟩ := decodeTransfer_strict hstrict ht
        exact .transfer hprogram (of_decide_eq_true hchecked) hmoves

/-- What a lenient reader keeps of it. -/
def Decoded.kept : Decoded → Decoded
  | .memo _ => .nothing
  | d => d

omit [Web3] in
theorem decodeTransfer_lenient {mint : Option JsText} {program : Option TokenProgram}
    {programId : JsText} {checked : Bool} {t : CrossmintTransferTerms}
    (h : decodeTransfer m ⟨mint, program, true⟩ programId ix checked = .ok t) :
    decodeTransfer m ⟨mint, program, false⟩ programId ix checked = .ok t := by
  obtain ⟨_, hlength, h⟩ := bind_eq_ok.mp h
  obtain ⟨_, hleast, h⟩ := bind_eq_ok.mp h
  obtain ⟨_, -, h⟩ := bind_eq_ok.mp h
  exact bind_eq_ok.mpr ⟨(), hlength, bind_eq_ok.mpr ⟨(), hleast,
    bind_eq_ok.mpr ⟨(), ensure_pos (fun hstrict => Bool.false_ne_true hstrict.1) _, h⟩⟩⟩

omit [Web3] in
/-- A lenient reader finds the same transfers. -/
theorem decodeInstruction_lenient {mint : Option JsText} {program : Option TokenProgram}
    {d : Decoded} (h : decodeInstruction m ⟨mint, program, true⟩ ix = .ok d) :
    decodeInstruction m ⟨mint, program, false⟩ ix = .ok d.kept := by
  obtain ⟨k, hk, h⟩ := bind_eq_ok.mp h
  refine bind_eq_ok.mpr ⟨k, hk, ?_⟩
  dsimp only at h ⊢
  rw [if_neg fun hstrict => Bool.false_ne_true hstrict.1]
  split at h
  · rename_i hmemo
    obtain ⟨note, -, h⟩ := bind_eq_ok.mp h
    cases pure_eq_ok.mp h
    rw [if_pos (by rw [hmemo.2]; decide +kernel)]
    rfl
  · split at h
    · obtain ⟨_, hlax, -⟩ := bind_eq_ok.mp h
      cases ensure_eq_ok.mp hlax
    · rename_i hprogram
      rw [if_neg hprogram]
      split at h
      · obtain ⟨_, hlax, -⟩ := bind_eq_ok.mp h
        cases ensure_eq_ok.mp hlax
      · rename_i htag
        rw [if_neg htag]
        obtain ⟨t, ht, h⟩ := bind_eq_ok.mp h
        cases pure_eq_ok.mp h
        exact bind_eq_ok.mpr ⟨t, decodeTransfer_lenient ht, rfl⟩

omit [Web3] in
/-- Of a transfer and a memo at most, each of which is there. -/
theorem decoded_pair {ixs : List CompiledInstruction} {decoded : List Decoded}
    {t : CrossmintTransferTerms} {note : Memo} (hfound : List.Forall₂ (Found m) ixs decoded)
    (ht : (decoded.filterMap Decoded.transfer?).head? = some t)
    (hone : (decoded.filterMap Decoded.transfer?).length ≤ 1)
    (hnote : (decoded.filterMap Decoded.memo?).head? = some note)
    (hmost : (decoded.filterMap Decoded.memo?).length ≤ 1) :
    ∃ transfer memo, Found m transfer (.transfer t) ∧ Found m memo (.memo note) ∧
      (ixs = [transfer, memo] ∨ ixs = [memo, transfer]) := by
  have hlen : decoded.length =
      (decoded.filterMap Decoded.transfer?).length + (decoded.filterMap Decoded.memo?).length := by
    clear ht hone hnote hmost
    induction hfound with
    | nil => rfl
    | @cons ix d ixs ds hd _ ih =>
      cases hd with
      | memo hprogram htext =>
        change ds.length + 1 = (ds.filterMap Decoded.transfer?).length +
          ((ds.filterMap Decoded.memo?).length + 1)
        omega
      | transfer hprogram htag hmoves =>
        change ds.length + 1 = (ds.filterMap Decoded.transfer?).length + 1 +
          (ds.filterMap Decoded.memo?).length
        omega
  have htwo : decoded.length = 2 := by
    have htransfers := List.length_pos_of_mem (List.mem_of_head? ht)
    have hmemos := List.length_pos_of_mem (List.mem_of_head? hnote)
    omega
  obtain ⟨d, e, rfl⟩ := List.length_eq_two.mp htwo
  obtain ⟨x, xs, hx, hxs, rfl⟩ := List.forall₂_cons_right_iff.mp hfound
  obtain ⟨y, ys, hy, hys, rfl⟩ := List.forall₂_cons_right_iff.mp hxs
  cases List.forall₂_nil_right_iff.mp hys
  cases hx with
  | memo hprogram htext =>
    cases hy with
    | memo => cases ht
    | transfer hprogram' htag hmoves =>
      cases ht
      cases hnote
      exact ⟨y, x, .transfer hprogram' htag hmoves, .memo hprogram htext, .inr rfl⟩
  | transfer hprogram htag hmoves =>
    cases hy with
    | memo hprogram' htext =>
      cases ht
      cases hnote
      exact ⟨x, y, .transfer hprogram htag hmoves, .memo hprogram' htext, .inl rfl⟩
    | transfer => cases hnote

omit [Web3] in
theorem tokenProgramFrom_spl {programId : JsText}
    (h : tokenProgramFrom programId = .ok .splToken) : programId = SPL_TOKEN_PROGRAM_ID := by
  unfold tokenProgramFrom at h
  split at h
  · assumption
  · split at h
    · cases h
    · cases h

omit [Web3] in
/-- The ten bytes of a transfer. -/
theorem transfer_data {data : Bytes} (hlength : data.length = 10)
    (htag : data.head? = some SPL_TRANSFER_CHECKED_TAG)
    (hdecimals : (data[9]?).map UInt8.toNat = some 6) :
    data = SPL_TRANSFER_CHECKED_TAG :: (leBytes 8 (ofLeBytes ((data.drop 1).take 8)) ++ [6]) := by
  cases data with
  | nil => cases htag
  | cons tag rest =>
    cases htag
    have hrest : rest.length = 9 := by simpa using hlength
    have hlow : (rest.take 8).length = 8 := by
      rw [List.length_take]
      omega
    have hbytes := leBytes_ofLeBytes (rest.take 8)
    rw [hlow] at hbytes
    have hlast : rest.drop 8 = [6] := by
      obtain ⟨b, hb, hsix⟩ := Option.map_eq_some_iff.mp hdecimals
      rw [List.getElem?_cons_succ] at hb
      have hlt : 8 < rest.length := by omega
      rw [List.drop_eq_getElem_cons hlt, List.drop_eq_nil_of_le (by omega)]
      rw [List.getElem?_eq_getElem hlt] at hb
      cases hb
      rw [← UInt8.toNat_inj.mp (hsix.trans (by decide : 6 = (6 : UInt8).toNat))]
    rw [List.drop_succ_cons, List.drop_zero, hbytes, ← hlast, List.take_append_drop]

/-- **A strict decode finds one transfer and one memo and nothing else.** -/
theorem decodeTerms_strict {wire : JsText} {mint : Option JsText} {t : CrossmintTransferTerms}
    {note : Memo}
    (h : decodeCrossmintTransferTerms wire ⟨mint, some .splToken, true⟩ = .ok t)
    (hnote : t.memo = some note) (hdecimals : t.decimals = some 6) :
    ∃ bytes message amount memo, Spells (trimPoints wire) bytes ∧
      Web3.deserialize bytes = some message ∧ t.amount = points (decimal amount) ∧
      note.text = points memo ∧ Charges message t.source t.mint t.recipient amount memo := by
  obtain ⟨_, -, h⟩ := bind_eq_ok.mp h
  obtain ⟨message, hmessage, h⟩ := bind_eq_ok.mp h
  obtain ⟨_, hlookups, h⟩ := bind_eq_ok.mp h
  obtain ⟨_, -, h⟩ := bind_eq_ok.mp h
  obtain ⟨decoded, hdecoded, h⟩ := bind_eq_ok.mp h
  obtain ⟨transfer, htransfer, h⟩ := bind_eq_ok.mp h
  obtain ⟨_, hone, h⟩ := bind_eq_ok.mp h
  obtain ⟨_, hmost, h⟩ := bind_eq_ok.mp h
  obtain ⟨_, -, h⟩ := bind_eq_ok.mp h
  obtain ⟨_, hprogram, h⟩ := bind_eq_ok.mp h
  cases pure_eq_ok.mp h
  rw [ensure_eq_ok] at hlookups hone hmost hprogram
  have hfound := (mapM_eq_ok.mp hdecoded).imp fun ix d hd => decodeInstruction_strict rfl hd
  obtain ⟨x, y, hx, hy, hixs⟩ := decoded_pair hfound (okOr_eq_ok.mp htransfer) hone hnote hmost
  obtain ⟨bytes, hspells, hbytes⟩ := deserializeCrossmintTransaction_eq_ok hmessage
  cases hx with
  | transfer hx htag hmoves =>
    cases hy with
    | memo hy htext =>
      have hspl := hprogram _ rfl
      dsimp only at hspl hdecimals
      have hprogramId := tokenProgramFrom_spl (hspl ▸ hmoves.program)
      rw [hprogramId] at hx
      obtain ⟨_, -, htext⟩ := bind_eq_ok.mp htext
      obtain ⟨text, hutf8, htext⟩ := bind_eq_ok.mp htext
      have hdata := transfer_data hmoves.length htag (hmoves.decimals ▸ hdecimals)
      have hfits : ofLeBytes ((x.data.drop 1).take 8) < 2 ^ 64 := by
        have hlt := ofLeBytes_lt ((x.data.drop 1).take 8)
        rw [List.length_take, List.length_drop, hmoves.length] at hlt
        exact hlt
      refine ⟨bytes, message, _, text, hspells, hbytes, hmoves.amount,
        (pure_eq_ok.mp htext).symm, hlookups, x, y, ⟨hx, hfits, hdata, hmoves.accounts⟩, ⟨hy, ?_⟩, hixs⟩
      exact (strictUtf8_eq_some (okOr_eq_ok.mp hutf8)).2.symm

theorem decodeTerms_mint {wire mint : JsText} {program : Option TokenProgram} {strict : Bool}
    {t : CrossmintTransferTerms} (hne : mint ≠ [])
    (h : decodeCrossmintTransferTerms wire ⟨some mint, program, strict⟩ = .ok t) :
    t.mint = mint := by
  obtain ⟨_, -, h⟩ := bind_eq_ok.mp h
  obtain ⟨message, -, h⟩ := bind_eq_ok.mp h
  obtain ⟨_, -, h⟩ := bind_eq_ok.mp h
  obtain ⟨_, -, h⟩ := bind_eq_ok.mp h
  obtain ⟨decoded, -, h⟩ := bind_eq_ok.mp h
  obtain ⟨transfer, -, h⟩ := bind_eq_ok.mp h
  obtain ⟨_, -, h⟩ := bind_eq_ok.mp h
  obtain ⟨_, -, h⟩ := bind_eq_ok.mp h
  obtain ⟨_, hmint, h⟩ := bind_eq_ok.mp h
  obtain ⟨_, -, h⟩ := bind_eq_ok.mp h
  cases pure_eq_ok.mp h
  exact (ensure_eq_ok.mp hmint mint rfl hne).symm

/-- A lenient decode of the same bytes reads the same transfer. -/
theorem decodeTerms_lenient {wire : JsText} {mint : Option JsText} {program : Option TokenProgram}
    {t : CrossmintTransferTerms}
    (h : decodeCrossmintTransferTerms wire ⟨mint, program, true⟩ = .ok t) :
    decodeCrossmintTransferTerms wire ⟨mint, program, false⟩ = .ok { t with memo := none } := by
  obtain ⟨_, hwire, h⟩ := bind_eq_ok.mp h
  obtain ⟨message, hmessage, h⟩ := bind_eq_ok.mp h
  obtain ⟨_, hlookups, h⟩ := bind_eq_ok.mp h
  obtain ⟨_, hkeys, h⟩ := bind_eq_ok.mp h
  obtain ⟨decoded, hdecoded, h⟩ := bind_eq_ok.mp h
  obtain ⟨transfer, htransfer, h⟩ := bind_eq_ok.mp h
  obtain ⟨_, hone, h⟩ := bind_eq_ok.mp h
  obtain ⟨_, -, h⟩ := bind_eq_ok.mp h
  obtain ⟨_, hmint, h⟩ := bind_eq_ok.mp h
  obtain ⟨_, hprogram, h⟩ := bind_eq_ok.mp h
  cases pure_eq_ok.mp h
  have hkept : message.compiledInstructions.mapM
      (decodeInstruction message ⟨mint, program, false⟩) = .ok (decoded.map Decoded.kept) := by
    rw [mapM_eq_ok, List.forall₂_map_right_iff]
    exact (mapM_eq_ok.mp hdecoded).imp fun ix d hd => decodeInstruction_lenient hd
  have htransfers : (decoded.map Decoded.kept).filterMap Decoded.transfer? =
      decoded.filterMap Decoded.transfer? := by
    rw [List.filterMap_map]
    apply List.filterMap_congr
    intro d _
    cases d <;> rfl
  have hmemos : (decoded.map Decoded.kept).filterMap Decoded.memo? = [] := by
    rw [List.filterMap_map, List.filterMap_eq_nil_iff]
    intro d _
    cases d <;> rfl
  unfold decodeCrossmintTransferTerms
  refine bind_eq_ok.mpr ⟨(), hwire, bind_eq_ok.mpr ⟨message, hmessage, bind_eq_ok.mpr
    ⟨(), hlookups, bind_eq_ok.mpr ⟨(), hkeys, bind_eq_ok.mpr ⟨_, hkept, ?_⟩⟩⟩⟩⟩
  dsimp only
  rw [htransfers, hmemos]
  exact bind_eq_ok.mpr ⟨transfer, htransfer, bind_eq_ok.mpr ⟨(), hone, bind_eq_ok.mpr
    ⟨(), rfl, bind_eq_ok.mpr ⟨(), hmint, bind_eq_ok.mpr ⟨(), hprogram, rfl⟩⟩⟩⟩⟩

end

/-! ## The memo and the quote -/

omit [Web3] in
theorem crossmintOrderMemo_eq {memo orderId checked : JsText}
    (h : crossmintOrderMemo memo orderId = .ok checked) : checked = memo := by
  obtain ⟨_, -, h⟩ := bind_eq_ok.mp h
  obtain ⟨_, -, h⟩ := bind_eq_ok.mp h
  obtain ⟨_, -, h⟩ := bind_eq_ok.mp h
  obtain ⟨_, -, h⟩ := bind_eq_ok.mp h
  obtain ⟨_, -, h⟩ := bind_eq_ok.mp h
  exact (pure_eq_ok.mp h).symm

omit [Web3] in
/-- **What the relay reads off a memo that the SDK checked is the order's id.** -/
theorem crossmintOrderMemo_read [SerdeJson] {text id : List Char} {orderId memo : JsText}
    (h : crossmintOrderMemo (points text) orderId = .ok memo)
    (hread : crossmint_memo_order text = some id) : points id = orderId := by
  obtain ⟨_, -, h⟩ := bind_eq_ok.mp h
  obtain ⟨⟨header, payload, signature⟩, hsegments, h⟩ := bind_eq_ok.mp h
  obtain ⟨_, -, h⟩ := bind_eq_ok.mp h
  obtain ⟨d, hd, h⟩ := bind_eq_ok.mp h
  obtain ⟨_, hid, -⟩ := bind_eq_ok.mp h
  rw [okOr_eq_ok] at hsegments hd
  rw [chars_points, Option.bind_some] at hsegments
  rw [ensure_eq_ok] at hid
  obtain ⟨⟨_, payload', _⟩, hsegments', hread⟩ := Option.bind_eq_some_iff.mp hread
  rw [hsegments] at hsegments'
  cases hsegments'
  obtain ⟨bs, hbs, hread⟩ := Option.bind_eq_some_iff.mp hread
  obtain ⟨json, hjson, hread⟩ := Option.bind_eq_some_iff.mp hread
  obtain ⟨value, hvalue, hread⟩ := Option.bind_eq_some_iff.mp hread
  obtain ⟨groups, hgroups, hloose⟩ := looseSextets_of_strictUrl hbs
  -- both readers parse the same text
  have hsame : base64UrlJson payload = some value := by
    rw [base64UrlJson, hgroups, Option.bind_eq_bind, Option.bind_some, hloose,
      (strictUtf8_eq_some hjson).1]
    exact (Option.filter_eq_some_iff.mp hvalue).1
  rw [hsame] at hd
  have hvalue : value = d := Option.some.inj (Option.filter_eq_some_iff.mp hd).1
  change textOf (d.prop "orderIdentifier") = some orderId at hid
  rw [hvalue, serdeString_eq_some] at hread
  rw [hread] at hid
  exact Option.some.inj hid

omit [Web3] in
theorem quoteCheckFor_matched {order : CrossmintOrderSummary} {t : CrossmintTransferTerms}
    {amount : Nat} (hamount : t.amount = points (decimal amount)) (hdecimals : t.decimals = some 6)
    (h : quoteCheckFor order t = .matched) :
    ∃ total text, order.quotedTotal = some total ∧ trimPoints total.amount = points text ∧
      Denotes text (amount / 10 ^ 6) := by
  unfold quoteCheckFor at h
  rw [hdecimals] at h
  split at h
  · rename_i total decimals htotal hsix
    cases hsix
    split at h
    · cases h
    · split at h
      · cases h
      · rename_i units hunits
        split at h
        · rename_i hequal
          rw [hamount, chars_points, Option.map_some, decimalValue_decimal] at hequal
          cases hequal
          obtain ⟨text, htext, hdenotes⟩ := scaleDecimalString_denotes hunits
          exact ⟨total, text, htotal, htext, by exact_mod_cast hdenotes⟩
        · cases h
  · cases h

/-! ## The whole order -/

/-- What the terms say is what the order of a body charges. -/
structure Honest [SerdeJson] (order : Doc) (terms : CrossmintPaymentTerms) (amount : Nat)
    (memo : List Char) : Prop where
  charged : terms.amount = points (decimal amount)
  carried : terms.memo = some (points memo)
  transaction : ∃ u bytes message,
    path ["payment", "preparation", "serializedTransaction"] order = some (.str u) ∧
    Spells (trimPoints u) bytes ∧ Web3.deserialize bytes = some message ∧
    Charges message terms.crossmintSourceTokenAccount terms.mint terms.recipient amount memo
  quote : ∃ u text, path ["quote", "totalPrice", "amount"] order = some (.str u) ∧
    trimPoints u = points text ∧ Denotes text (amount / 10 ^ 6)
  lines : ∃ lines, path ["lineItems"] order = some (.arr lines) ∧
    List.Forall₂ Bound lines terms.items
  relay : ∀ id, crossmint_memo_order memo = some id → points id = terms.orderId

/-- The fields of the body that checkout decides on. -/
theorem parseCrossmintOrder_fields {body : Doc} {order : CrossmintOrderSummary}
    (hparse : parseCrossmintOrder body = .ok order) :
    order.quotedTotal = quoteTotal (some (orderOf body)) ∧
      order.lineItems = (lineItems (member "lineItems" (some (orderOf body)))).1 ∧
      order.lineItemCount = (lineItems (member "lineItems" (some (orderOf body)))).2 ∧
      order.serializedTransaction = optionalString
        (path ["payment", "preparation", "serializedTransaction"] (orderOf body))
        MAX_SERIALIZED_TRANSACTION_CHARS := by
  obtain ⟨envelope, henvelope, h⟩ := bind_eq_ok.mp hparse
  have hbody : envelope = body :=
    (Option.some.inj (Option.filter_eq_some_iff.mp (okOr_eq_ok.mp henvelope)).1).symm
  subst hbody
  obtain ⟨orderId, -, h⟩ := bind_eq_ok.mp h
  obtain ⟨phase, -, h⟩ := bind_eq_ok.mp h
  cases pure_eq_ok.mp h
  refine ⟨rfl, rfl, rfl, ?_⟩
  dsimp only
  simp only [member_optionalRecord]
  rfl

/-- **Checkout terms are exactly what the order charges.** -/
theorem checkout_honest [SerdeJson] {body : Doc} {order : CrossmintOrderSummary}
    {expected : ExpectedCheckout} {terms : CrossmintPaymentTerms}
    (hparse : parseCrossmintOrder body = .ok order)
    (hvalid : validateCrossmintCheckoutOrder order expected = .ok terms) :
    terms.orderId = expected.orderId ∧ terms.mint = expected.mint ∧
      terms.crossmintSourceTokenAccount = expected.source ∧
      ∃ amount memo, Honest (orderOf body) terms amount memo := by
  obtain ⟨hquoted, hitems, hcount, hserialized⟩ := parseCrossmintOrder_fields hparse
  obtain ⟨_, hid, h⟩ := bind_eq_ok.mp hvalid
  obtain ⟨_, -, h⟩ := bind_eq_ok.mp h
  obtain ⟨_, husdc, h⟩ := bind_eq_ok.mp h
  obtain ⟨_, -, h⟩ := bind_eq_ok.mp h
  obtain ⟨_, -, h⟩ := bind_eq_ok.mp h
  obtain ⟨_, -, h⟩ := bind_eq_ok.mp h
  obtain ⟨_, hbindable, h⟩ := bind_eq_ok.mp h
  obtain ⟨transfer, htransfer, h⟩ := bind_eq_ok.mp h
  obtain ⟨_, hsource, h⟩ := bind_eq_ok.mp h
  obtain ⟨_, -, h⟩ := bind_eq_ok.mp h
  obtain ⟨statedMemo, -, h⟩ := bind_eq_ok.mp h
  obtain ⟨carried, hcarried, h⟩ := bind_eq_ok.mp h
  obtain ⟨_, hsame, h⟩ := bind_eq_ok.mp h
  obtain ⟨_, -, h⟩ := bind_eq_ok.mp h
  obtain ⟨memo, hmemo, h⟩ := bind_eq_ok.mp h
  obtain ⟨paid, hpaid, h⟩ := bind_eq_ok.mp h
  obtain ⟨_, hmatched, h⟩ := bind_eq_ok.mp h
  cases pure_eq_ok.mp h
  rw [ensure_eq_ok] at hid husdc hsource hsame hmatched
  rw [okOr_eq_ok] at hcarried
  obtain ⟨_, -, hpaid⟩ := bind_eq_ok.mp hpaid
  obtain ⟨wire, hwire, hpaid⟩ := bind_eq_ok.mp hpaid
  obtain ⟨read, hread, hpaid⟩ := bind_eq_ok.mp hpaid
  cases pure_eq_ok.mp hpaid
  rw [okOr_eq_ok] at hwire
  rw [hwire, Option.getD_some] at htransfer
  -- the lenient decode reads what the strict one read
  rw [decodeTerms_lenient htransfer] at hread
  cases hread
  obtain ⟨bytes, message, amount, text, hspells, hmessage, hamount, htext, hcharges⟩ :=
    decodeTerms_strict htransfer hcarried hsource.2
  rw [hwire] at hserialized
  obtain ⟨u, hu, htrim, -⟩ := optionalString_eq_some hserialized.symm
  rw [← htrim, trimPoints_trimPoints] at hspells
  obtain ⟨total, digits, htotal, hdigits, hdenotes⟩ :=
    @quoteCheckFor_matched order { transfer with memo := none } amount hamount hsource.2 hmatched
  rw [htotal] at hquoted
  obtain ⟨v, hv, hvtrim⟩ := quoteTotal_eq_some hquoted.symm
  rw [← hvtrim, trimPoints_trimPoints] at hdigits
  obtain ⟨lines, hlines, hbound⟩ := requireBindableItems_bound hitems hcount hbindable
  rw [← hsame, htext] at hmemo
  have hmint : expected.mint ≠ [] := by
    rw [husdc.2]
    decide +kernel
  refine ⟨hid.1, decodeTerms_mint hmint htransfer, hsource.1, amount, text, hamount, ?_,
    ⟨u, bytes, message, hu, hspells, hmessage, hcharges⟩, ⟨v, digits, hv, hdigits, hdenotes⟩,
    ⟨lines, hlines, hbound⟩, fun id hrelay => crossmintOrderMemo_read hmemo hrelay⟩
  exact congrArg some (crossmintOrderMemo_eq hmemo)

end

/-! ## An order -/

def sampleKeys (keys : List Bytes) : Option (List Key) :=
  keys.mapM fun bs => if h : bs.length = 32 then some ⟨bs, h⟩ else none

/-- A legacy transaction, read off the wire. -/
def sampleDeserialize (bs : Bytes) : Option VersionedMessage := do
  let (_, rest) ← (skipSignatures bs).bind readVersion
  let ((required, keys, count), rest) ← readHead rest
  let (instructions, _) ← readMany readInstruction count rest
  some {
    numRequiredSignatures := required.toNat
    staticAccountKeys := ← sampleKeys keys
    addressTableLookups := 0
    compiledInstructions := instructions.map fun ix =>
      ⟨ix.program.toNat, ix.accounts.map UInt8.toNat, ix.data⟩ }

@[reducible] def sampleWeb3 : Web3 where
  deserialize := sampleDeserialize
  publicKey text := (ofBase58 text).bind fun bs =>
    if h : bs.length = 32 then some ⟨bs, h⟩ else none
  dateParse text := if text = key "2026-01-01T00:00:00.000Z" then some 1767225600000 else none

@[reducible] def sampleSerde : SerdeJson where
  holds _ := true

def sampleKey (b : UInt8) : Key := ⟨List.replicate 32 b, List.length_replicate⟩

def programKey (text : JsText) : Key :=
  ⟨beBytes 32 ((chars text).bind number58 |>.getD 0), beBytes_length _ _⟩

def sampleMemo : List Char :=
  MEMO_BEGIN ++ base64Url (encodeUtf8 ['{', '}']) ++ ['.'] ++
    base64Url (encodeUtf8 (objectText [("orderIdentifier".toList, quoteText "order-1".toList)])) ++
    ['.', 'x'] ++ MEMO_END

/-- A payment of 2.5 to account 9, with the memo. -/
def sampleTransaction : Transaction where
  signatures := [⟨List.replicate 64 0, List.length_replicate⟩]
  message :=
    { lookups := none
      required := 1
      readonlySigned := 0
      readonlyUnsigned := 3
      keys := [sampleKey 7, sampleKey 8, sampleKey 9, programKey DEVNET_USDC,
        programKey SPL_TOKEN_PROGRAM_ID, programKey MEMO_PROGRAM_ID]
      blockhash := sampleKey 1
      instructions := [⟨4, [1, 3, 2, 0], 12 :: (leBytes 8 2500000 ++ [6])⟩,
        ⟨5, [0], encodeUtf8 sampleMemo⟩] }

def sampleText (s : String) : Doc := .str (key s)

def sampleRecord (members : List (String × Doc)) : Doc :=
  .obj (members.map fun m => (key m.1, m.2))

def sampleLine : Doc :=
  sampleRecord [("metadata", sampleRecord [("name", sampleText "A ticket")]),
    ("quantity", .num ⟨false, 2, none, none⟩),
    ("callData", sampleRecord [("quantity", sampleText "2")]),
    ("delivery", sampleRecord [("recipient", sampleRecord
      [("locator", .str (key "solana:" ++ address (sampleKey 7)))])])]

def sampleBody : Doc :=
  sampleRecord [("order", sampleRecord
    [("orderId", sampleText "order-1"), ("phase", sampleText "payment"),
      ("quote", sampleRecord [("status", sampleText "valid"),
        ("expiresAt", sampleText "2026-01-01T00:00:00.000Z"),
        ("totalPrice", sampleRecord [("amount", sampleText "2.50"),
          ("currency", sampleText "usdc")])]),
      ("lineItems", .arr [sampleLine]),
      ("payment", sampleRecord [("status", sampleText "awaiting-payment"),
        ("method", sampleText "solana"), ("currency", sampleText "usdc"),
        ("preparation", sampleRecord [("chain", sampleText "solana"),
          ("payerAddress", .str (address (sampleKey 7))),
          ("serializedTransaction", .str (points (btoa sampleTransaction.bytes))),
          ("transactionParameters", sampleRecord [("memo", .str (points sampleMemo)),
            ("amount", sampleText "2500000")])])])])]

def sampleExpected : ExpectedCheckout where
  orderId := key "order-1"
  owner := address (sampleKey 7)
  source := address (sampleKey 8)
  mint := DEVNET_USDC
  now := 1767225599999

set_option maxRecDepth 4000 in
theorem checkout_sample :
    letI := sampleWeb3
    ((parseCrossmintOrder sampleBody).bind fun order =>
      validateCrossmintCheckoutOrder order sampleExpected).toOption.isSome = true := by
  have hwire : btoa sampleTransaction.bytes =
    "AQAAAAAAAAAAAAAAAAAAAAAAAAAAAAAAAAAAAAAAAAAAAAAAAAAAAAAAAAAAAAAAAAAAAAAAAAAAAAAAAAAA".toList ++
    "AAABAAMGBwcHBwcHBwcHBwcHBwcHBwcHBwcHBwcHBwcHBwcHBwcICAgICAgICAgICAgICAgICAgICAgICAgI".toList ++
    "CAgICAgICAkJCQkJCQkJCQkJCQkJCQkJCQkJCQkJCQkJCQkJCQkJO0Qss5EhV/E6kz0BNCgtAytf/s0Botvx".toList ++
    "t3kGCN8ALqcG3fbh12Whk9nL4UbO63msHLSF7V9bN5E6jPWFfv8AqQVKU1qZKSEGTSTocWDaOHx8NbXdvJK7".toList ++
    "geQfqEBBBUSNAQEBAQEBAQEBAQEBAQEBAQEBAQEBAQEBAQEBAQEBAQECBAQBAwIACgygJSYAAAAAAAYFAQBX".toList ++
    "LS0tLS0tQkVHSU4gTUVNTy0tLS0tLWUzMC5leUp2Y21SbGNrbGtaVzUwYVdacFpYSWlPaUp2Y21SbGNpMHhJ".toList ++
    "bjAueC0tLS0tLUVORCBNRU1PLS0tLS0t".toList := by
    rw [String.toList_ofList, String.toList_ofList, String.toList_ofList, String.toList_ofList,
      String.toList_ofList, String.toList_ofList, String.toList_ofList]
    decide +kernel
  rw [String.toList_ofList, String.toList_ofList, String.toList_ofList, String.toList_ofList,
    String.toList_ofList, String.toList_ofList, String.toList_ofList] at hwire
  have hbytes : sampleTransaction.bytes ≠ [] := by decide +kernel
  have hbase58 : base58Decode (points (btoa sampleTransaction.bytes)) = none := by
    rw [hwire]
    decide +kernel
  have hread : @deserializeCrossmintTransaction sampleWeb3 (points (btoa sampleTransaction.bytes)) =
      okOr (sampleDeserialize sampleTransaction.bytes) .malformed := by
    simp only [deserializeCrossmintTransaction, deserializeWith, hbase58, base64Decode_btoa hbytes,
      Option.bind_eq_bind, Option.bind_none, Option.bind_some, Option.orElse_eq_orElse,
      Option.orElse_none, if_neg hbytes]
    rfl
  have htabled : tabled [(points (btoa sampleTransaction.bytes),
      okOr (sampleDeserialize sampleTransaction.bytes) .malformed)]
        (@deserializeCrossmintTransaction sampleWeb3) =
      @deserializeCrossmintTransaction sampleWeb3 := by
    refine tabled_eq fun p hp => ?_
    rw [List.mem_singleton.mp hp]
    exact hread
  unfold sampleBody validateCrossmintCheckoutOrder crossmintPaymentTerms
    decodeCrossmintTransferTerms
  rw [← htabled, hwire]
  decide +kernel

theorem checkout_honest_sample :
    letI := sampleWeb3
    letI := sampleSerde
    ∃ order terms, parseCrossmintOrder sampleBody = .ok order ∧
      validateCrossmintCheckoutOrder order sampleExpected = .ok terms ∧
      terms.orderId = sampleExpected.orderId ∧ terms.mint = sampleExpected.mint ∧
      terms.crossmintSourceTokenAccount = sampleExpected.source ∧
      ∃ amount memo, Honest (orderOf sampleBody) terms amount memo := by
  let _ := sampleWeb3
  let _ := sampleSerde
  have haccepted := checkout_sample
  cases horder : parseCrossmintOrder sampleBody with
  | error e =>
    rw [horder] at haccepted
    cases haccepted
  | ok order =>
    rw [horder] at haccepted
    cases hterms : validateCrossmintCheckoutOrder order sampleExpected with
    | error e =>
      change (validateCrossmintCheckoutOrder order sampleExpected).toOption.isSome = true
        at haccepted
      rw [hterms] at haccepted
      cases haccepted
    | ok terms => exact ⟨order, terms, rfl, hterms, checkout_honest horder hterms⟩

end ChainPay.Checkout
