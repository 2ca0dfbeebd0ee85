import ChainPay.Repay.Forward
import ChainPay.Repay.History

/-!
Which payouts settle which statements. A payout is attributed by the frame that made it, but
`claim_settlements` claims the whole transaction for one statement. `Books` is what every
interleaving of checks keeps over a fixed finalized history, from a store on in which no two open
statements have their exact payout in one transaction: claims stand behind every credit, and a
statement that was paid exactly stays on its way to that payout.
-/

namespace ChainPay.Repay
open ChainPay.Lib

/-! ## Checks over lists of payouts -/

section

variable {found more : List (String × Settlement)} {want : Nat} {mint partner : String}

theorem check_of_mem {p : String × Settlement} (hp : p ∈ found)
    (hexact : p.2.exact want mint partner = true) :
    ∃ signature amount, check found want mint partner = .ok (signature, amount) := by
  cases hc : check found want mint partner with
  | ok x => exact ⟨x.1, x.2, rfl⟩
  | error fields =>
    have hnone := check_error hc p hp
    exact absurd hexact (by rw [hnone]; exact Bool.false_ne_true)

/-- Later payouts do not undo the first exact one. -/
theorem check_of_prefix {x : String × Nat} (hp : found <+: more)
    (hc : check found want mint partner = .ok x) : check more want mint partner = .ok x := by
  obtain ⟨rest, rfl⟩ := hp
  unfold check at hc ⊢
  rw [List.find?_append]
  split at hc
  · rename_i signature s hfind
    rw [hfind]
    exact hc
  · cases hc

end

section

variable [Connector]

/-- The attempt asks for what the configuration asks for now. -/
structure Current (v : Statement) (a : Attempt) : Prop where
  reference : a.clientRefId ≠ ""
  partner : Connector.partnerTokenAccount = some a.recipientTokenAccount
  mint : a.mint = Connector.mint
  due : v.amountDueCents ≠ 0
  amount : baseUnits v.amountDueCents a.decimals = some a.amountBaseUnits

/-- The transaction executes a payout with the attempt's reference that pays exactly what it
asks for, out of the vault of its mint. -/
def Attempt.paidIn (a : Attempt) (x : Landed) : Prop :=
  ∃ s ∈ (settlementsIn x.tx).getD [], s.clientRefId = a.clientRefId ∧
    s.exact a.amountBaseUnits a.mint a.recipientTokenAccount = true

/-- The statement takes a repayment, and its open attempt was paid exactly what it asks for. -/
structure Paid (h : History) (v : Statement) (a : Attempt) : Prop where
  takes : takesRepayment v = true
  opened : v.openAttempt = some a
  current : Current v a
  paid : ∃ x ∈ newer h a.partnerCursor, x.listed.ok = true ∧ a.paidIn x

/-- The transaction of the first exact payout among those that a scan from the cursor lists. -/
def Attempt.settles (h : History) (a : Attempt) (signature : String) : Prop :=
  ∃ amount, check (listedPayouts h a.clientRefId a.partnerCursor) a.amountBaseUnits a.mint
    a.recipientTokenAccount = .ok (signature, amount)

/-- No payouts, or an exact one among them. -/
def Attempt.Clear (a : Attempt) (found : List (String × Settlement)) : Prop :=
  found = [] ∨ ∃ p ∈ found, p.2.exact a.amountBaseUnits a.mint a.recipientTokenAccount = true

instance (a : Attempt) (found : List (String × Settlement)) : Decidable (a.Clear found) :=
  inferInstanceAs (Decidable (_ ∨ _))

/-- A statement that still takes a repayment waits for this transaction. -/
def Statement.awaitsIn (h : History) (v : Statement) (signature : String) : Prop :=
  takesRepayment v = true ∧
    ∃ a ∈ v.attempts, a.state = .awaitingSettlement ∧ a.settles h signature

/-- A store as earlier passes may have left it: every statement that a private payout has
settled holds the claim. -/
structure Opening (h : History) (s : Store) : Prop where
  finalized : (signaturesOf h).Nodup
  good : ∀ key row, s.statements.lookup key = some row → Good row.value
  credited : ∀ key row signature, s.statements.lookup key = some row →
    row.value.settledBy signature → s.claims.lookup signature = some key

/-- No two open statements have their first exact payout in one transaction, no such transaction
is claimed for another statement, and the exact payout of a paid statement is among those that a
scan from its cursor lists. -/
structure OneByOne (h : History) (s : Store) : Prop where
  apart : ∀ key₁ row₁ key₂ row₂ signature, s.statements.lookup key₁ = some row₁ →
    s.statements.lookup key₂ = some row₂ → row₁.value.awaitsIn h signature →
    row₂.value.awaitsIn h signature → key₁ = key₂
  unclaimed : ∀ key row signature owner, s.statements.lookup key = some row →
    row.value.awaitsIn h signature → s.claims.lookup signature = some owner → owner = key
  listed : ∀ key row a, s.statements.lookup key = some row → Paid h row.value a →
    ∃ signature, a.settles h signature

variable {h : History} {v v₀ v' : Statement} {a x : Attempt} {signature : String}

omit [Connector] in
theorem Attempt.Clear.check {found : List (String × Settlement)} (hc : a.Clear found)
    (hne : found ≠ []) : ∃ signature amount, check found a.amountBaseUnits a.mint
      a.recipientTokenAccount = .ok (signature, amount) := by
  rcases hc with hnil | ⟨p, hp, hexact⟩
  · exact absurd hnil hne
  · exact check_of_mem hp hexact

/-- The check decides which transaction settles an attempt. -/
theorem Attempt.settles_iff {first : String} {amount : Nat}
    (hc : Repay.check (listedPayouts h a.clientRefId a.partnerCursor) a.amountBaseUnits a.mint
      a.recipientTokenAccount = .ok (first, amount)) :
    a.settles h signature ↔ signature = first := by
  constructor
  · rintro ⟨_, hs⟩
    cases hc.symm.trans hs
    rfl
  · rintro rfl
    exact ⟨amount, hc⟩

theorem Attempt.settles_paid (hs : a.settles h signature) :
    ∃ x ∈ newer h a.partnerCursor, x.signature = signature ∧ a.paidIn x := by
  obtain ⟨amount, hc⟩ := hs
  obtain ⟨s, hmem, hexact⟩ := check_ok hc
  obtain ⟨x, hx, -, hsig, hin, href⟩ := mem_payouts.mp hmem
  exact ⟨x, (listing_suffix _).subset hx, hsig.symm, s, hin, href, hexact⟩

/-! ## What checks leave of a statement -/

/-- What no check changes about an attempt. -/
def Attempt.terms (a : Attempt) : Nat × String × String × Nat × Nat × String :=
  (a.seq, a.clientRefId, a.mint, a.decimals, a.amountBaseUnits, a.recipientTokenAccount)

/-- What checks leave of an attempt: its terms, with a cursor that has moved over transactions
without a payout only. None of them opens an attempt that was not open. -/
structure Attempt.Follows (h : History) (a x : Attempt) : Prop where
  terms : x.terms = a.terms
  skipped : Skipped h a.clientRefId a.partnerCursor x.partnerCursor
  waits : x.state = .awaitingSettlement → a.state = .awaitingSettlement

structure Kin (h : History) (v₀ v : Statement) : Prop where
  due : v.amountDueCents = v₀.amountDueCents
  seqs : v.attempts.map Attempt.seq = v₀.attempts.map Attempt.seq
  attempts : ∀ x ∈ v.attempts, ∃ a ∈ v₀.attempts, a.Follows h x
  repaid : v₀.repaid → v.repaid

theorem Attempt.Follows.refl (h : History) (a : Attempt) : a.Follows h a :=
  ⟨rfl, Skipped.refl _ _ _, id⟩

theorem Attempt.Follows.seq (hf : a.Follows h x) : x.seq = a.seq :=
  congrArg Prod.fst hf.terms

theorem Attempt.Follows.reference (hf : a.Follows h x) : x.clientRefId = a.clientRefId :=
  congrArg (fun t => t.2.1) hf.terms

/-- The terms without the number, field by field. -/
theorem Attempt.Follows.asks (hf : a.Follows h x) : x.mint = a.mint ∧ x.decimals = a.decimals ∧
    x.amountBaseUnits = a.amountBaseUnits ∧ x.recipientTokenAccount = a.recipientTokenAccount := by
  have hterms := hf.terms
  simp only [Attempt.terms, Prod.mk.injEq] at hterms
  exact ⟨hterms.2.2.1, hterms.2.2.2.1, hterms.2.2.2.2.1, hterms.2.2.2.2.2⟩

theorem Attempt.Follows.check_eq (hf : a.Follows h x) (found : List (String × Settlement)) :
    check found x.amountBaseUnits x.mint x.recipientTokenAccount =
      check found a.amountBaseUnits a.mint a.recipientTokenAccount := by
  obtain ⟨hmint, -, hamount, hrec⟩ := hf.asks
  rw [hmint, hamount, hrec]

theorem Attempt.Follows.settles (hf : a.Follows h x) :
    x.settles h signature ↔ a.settles h signature := by
  unfold Attempt.settles
  rw [hf.reference, hf.skipped.payouts_eq]
  simp only [hf.check_eq]

/-- A written attempt with the same terms and cursor. -/
theorem Attempt.Follows.marked (hf : a.Follows h x) {y : Attempt} (hterms : y.terms = x.terms)
    (hcursor : y.partnerCursor = x.partnerCursor) (hstate : y.state ≠ .awaitingSettlement) :
    a.Follows h y :=
  ⟨hterms.trans hf.terms, by rw [hcursor]; exact hf.skipped, fun hy => absurd hy hstate⟩

theorem Current.of_follows (hc : Current v₀ a) (hk : Kin h v₀ v) (hf : a.Follows h x) :
    Current v x := by
  obtain ⟨hmint, hdec, hamount, hrec⟩ := hf.asks
  refine ⟨?_, ?_, ?_, ?_, ?_⟩
  · rw [hf.reference]
    exact hc.reference
  · rw [hrec]
    exact hc.partner
  · rw [hmint]
    exact hc.mint
  · rw [hk.due]
    exact hc.due
  · rw [hk.due, hdec, hamount]
    exact hc.amount

theorem Kin.refl (h : History) (v : Statement) : Kin h v v :=
  ⟨rfl, rfl, fun x hx => ⟨x, hx, Attempt.Follows.refl h x⟩, id⟩

theorem Kin.nodup (hk : Kin h v₀ v) (hg : Good v₀) : (v.attempts.map Attempt.seq).Nodup := by
  rw [hk.seqs, hg.ids]
  exact List.nodup_range'

/-- The attempt with this number is the one it was. -/
theorem Kin.follows (hk : Kin h v₀ v) (hg : Good v₀) (ha : a ∈ v₀.attempts) (hx : x ∈ v.attempts)
    (hseq : x.seq = a.seq) : a.Follows h x := by
  obtain ⟨y, hy, hf⟩ := hk.attempts x hx
  have hya : y = a := hg.seq_inj hy ha (hf.seq.symm.trans hseq)
  rw [← hya]
  exact hf

/-- A write to one attempt. -/
theorem Kin.set {id : Nat} {state : AttemptState} {f : Attempt → Attempt} {w : Statement}
    (hk : Kin h v₀ v) (hw : w.attempts = v.attempts) (hdue : w.amountDueCents = v.amountDueCents)
    (hrepaid : v.repaid → w.repaid) (hseq : ∀ y, (f y).seq = y.seq)
    (hf : ∀ y ∈ v.attempts, y.seq = id → ∀ a ∈ v₀.attempts, a.Follows h y →
      a.Follows h (f { y with state := state })) :
    Kin h v₀ (setAttempt w id state f) where
  due := hdue.trans hk.due
  seqs := by
    rw [setAttempt_ids hseq, hw]
    exact hk.seqs
  attempts := by
    intro x hx
    rcases mem_setAttempt hx with ⟨y, hy, hid, rfl⟩ | ⟨hx, -⟩
    · rw [hw] at hy
      obtain ⟨a, ha, hfollows⟩ := hk.attempts y hy
      exact ⟨a, ha, hf y hy hid a ha hfollows⟩
    · rw [hw] at hx
      exact hk.attempts x hx
  repaid := fun hr => hrepaid (hk.repaid hr)

theorem Paid.mem (hp : Paid h v a) : a ∈ v.attempts := List.mem_of_find?_eq_some hp.opened

omit [Connector] in
theorem openAttempt_waits (ho : v.openAttempt = some a) : a.state = .awaitingSettlement := by
  have hfound := List.find?_some ho
  simpa only [decide_eq_true_eq] using hfound

theorem Paid.waits (hp : Paid h v a) : a.state = .awaitingSettlement := openAttempt_waits hp.opened

/-- The paid attempt is the only one that can be open later. -/
theorem Paid.unique (hp : Paid h v₀ a) (hg : Good v₀) {b : Attempt} (hb : b ∈ v₀.attempts)
    (hwait : b.state = .awaitingSettlement) : b = a :=
  hg.seq_inj hb hp.mem (hg.one b hb a hp.mem hwait hp.waits)

/-- A statement whose attempt was paid exactly: settled by that payout, or still on the way to
it. The attempt is not marked as mismatched. -/
structure OnTrack (h : History) (v₀ : Statement) (a : Attempt) (v : Statement) : Prop where
  unmarked : ∀ x ∈ v.attempts, x.seq = a.seq → x.state ≠ .mismatch
  way : (∃ signature, v.settledBy signature ∧ a.settles h signature) ∨
    (v.state = v₀.state ∧ ∀ x ∈ v.attempts, x.seq = a.seq → x.state = .awaitingSettlement)

theorem OnTrack.refl (hp : Paid h v a) (hg : Good v) : OnTrack h v a v := by
  have hwait : ∀ x ∈ v.attempts, x.seq = a.seq → x.state = .awaitingSettlement := by
    intro x hx hseq
    rw [hg.seq_inj hx hp.mem hseq]
    exact hp.waits
  refine ⟨fun x hx hseq hm => ?_, .inr ⟨rfl, hwait⟩⟩
  cases (hwait x hx hseq).symm.trans hm

omit [Connector] in
theorem takes_congr (hs : v'.state = v.state) : takesRepayment v' = takesRepayment v := by
  simp only [takesRepayment, hs]

/-- A statement that still takes a repayment is on the way. -/
theorem OnTrack.waiting (ho : OnTrack h v₀ a v) (ht : takesRepayment v = true) :
    v.state = v₀.state ∧ ∀ x ∈ v.attempts, x.seq = a.seq → x.state = .awaitingSettlement := by
  rcases ho.way with ⟨_, ⟨hrep, -⟩, -⟩ | hway
  · cases hrep.symm.trans ht
  · exact hway

end

/-! ## The system -/

section

variable [Connector] (h : History) (paysInto : Bytes → String → Option String)

/-- A pass remembers the statement it has read first. -/
def noteRead : Op → Option String → Option String
  | .getStatement key, none => some key
  | _, g => g

omit [Connector] in
@[simp] theorem noteRead_some (o : Op) (key : String) : noteRead o (some key) = some key := by
  cases o <;> rfl

def watched : System Store Op Op.Ans Env Request Ext CardsError Unit (Option String) where
  perform := perform
  entry := handle paysInto
  outside := outside
  first := none
  note := noteRead

/-- Only checks run, and every reply is honest. -/
def polling : Terms Store Op Env Request Ext (Option String) where
  Starts := fun r => ∀ key, r ≠ .prepare key
  Meets := fun _ _ _ _ e => Replies h e
  Outside := fun _ _ => False

/-- The windows at the open attempts hold no payout with the reference, or an exact one. -/
def ClearWindow (a : Attempt) (v : Statement) : Prop :=
  takesRepayment v = true → ∀ x ∈ v.attempts, x.state = .awaitingSettlement →
    a.Clear (reading a.clientRefId (newer h x.partnerCursor)).found

/-- No pass over a statement that the store `s₀` shows as paid starts at a window that holds a
payout with its reference but no exact one, and none is cut between these two. -/
structure ClearReads (s₀ : Store) (g : Option String) (s : Store) (o : Op) (e : Env) : Prop where
  window : ∀ key row₀ a row, s₀.statements.lookup key = some row₀ → Paid h row₀.value a →
    g = none → o = .getStatement key → s.statements.lookup key = some row →
    ClearWindow h a row.value
  served : ∀ key row₀ a row, s₀.statements.lookup key = some row₀ → Paid h row₀.value a →
    g = some key → s.statements.lookup key = some row → takesRepayment row.value = true →
    ∀ ys x zs, listing (newer h a.partnerCursor) = ys ++ x :: zs →
      o = .transaction x.signature → e.transaction x.signature = some none →
      a.Clear (payouts a.clientRefId ys)

def clearing (s₀ : Store) : Terms Store Op Env Request Ext (Option String) where
  Starts := fun _ => True
  Meets := fun _ g s o e => ClearReads h s₀ g s o e
  Outside := fun _ _ => True

end

/-! ## The books -/

namespace Credits

section

variable [Connector] (h : History) (s₀ : Store)

/-- The store between any two awaits of the checks, from the store `s₀` on. -/
structure Books (s : Store) : Prop where
  kin : ∀ key row, s.statements.lookup key = some row →
    ∃ row₀, s₀.statements.lookup key = some row₀ ∧ Kin h row₀.value row.value
  claimed : ∀ signature key, s.claims.lookup signature = some key →
    s₀.claims.lookup signature = some key ∨
      ∃ row₀, s₀.statements.lookup key = some row₀ ∧ row₀.value.awaitsIn h signature
  credited : ∀ key row signature, s.statements.lookup key = some row →
    row.value.settledBy signature → s.claims.lookup signature = some key
  track : ∀ key row₀ a, s₀.statements.lookup key = some row₀ → Paid h row₀.value a →
    ∃ row, s.statements.lookup key = some row ∧ OnTrack h row₀.value a row.value

/-- What a check may do to a statement that was `v₀` at first, while these claims stand. -/
structure Move (claims : Table String String) (key : String) (v₀ v v' : Statement) : Prop where
  kin : Kin h v₀ v'
  repaid : v.repaid → v'.repaid ∧ v'.repayment = v.repayment
  credit : ∀ signature, v'.settledBy signature →
    v.settledBy signature ∨ claims.lookup signature = some key
  track : ∀ a, Paid h v₀ a → OnTrack h v₀ a v → OnTrack h v₀ a v'

/-- Rows get newer, repaid statements stay repaid, and claims stand. -/
structure Later (s s' : Store) : Prop where
  rows : ∀ key row, s.statements.lookup key = some row →
    ∃ row', s'.statements.lookup key = some row' ∧ (row' = row ∨ row.rev < row'.rev) ∧
      (row.value.repaid → row'.value.repaid)
  claims : ∀ signature key, s.claims.lookup signature = some key →
    s'.claims.lookup signature = some key

variable {h} {s₀}

omit [Connector] in
theorem Later.refl (s : Store) : Later s s :=
  ⟨fun _ row hr => ⟨row, hr, .inl rfl, id⟩, fun _ _ hc => hc⟩

omit [Connector] in
theorem Later.trans {s₁ s₂ s₃ : Store} (h₁ : Later s₁ s₂) (h₂ : Later s₂ s₃) : Later s₁ s₃ := by
  refine ⟨fun key row hrow => ?_, fun sig key hc => h₂.claims sig key (h₁.claims sig key hc)⟩
  obtain ⟨row₂, hrow₂, hrev₂, hrep₂⟩ := h₁.rows key row hrow
  obtain ⟨row₃, hrow₃, hrev₃, hrep₃⟩ := h₂.rows key row₂ hrow₂
  refine ⟨row₃, hrow₃, ?_, fun hr => hrep₃ (hrep₂ hr)⟩
  rcases hrev₂ with rfl | hrev₂
  · exact hrev₃
  · rcases hrev₃ with rfl | hrev₃
    · exact .inr hrev₂
    · exact .inr (Nat.lt_trans hrev₂ hrev₃)

omit [Connector] in
theorem Later.newer {s s' : Store} (hl : Later s s') (key : String) :
    Newer (s.statements.lookup key) (s'.statements.lookup key) := by
  intro row hrow
  obtain ⟨row', hrow', hrev, -⟩ := hl.rows key row hrow
  exact ⟨row', hrow', hrev⟩

omit [Connector] in
theorem Later.repaid {s s' : Store} (hl : Later s s') {key : String} (hr : Repaid s key) :
    Repaid s' key := by
  obtain ⟨row, hrow, hrep⟩ := hr
  obtain ⟨row', hrow', -, hrep'⟩ := hl.rows key row hrow
  exact ⟨row', hrow', hrep' hrep⟩

/-- The opening store. -/
theorem Books.init (ho : Opening h s₀) : Books h s₀ s₀ where
  kin := fun _ row hrow => ⟨row, hrow, Kin.refl h _⟩
  claimed := fun _ _ hc => .inl hc
  credited := ho.credited
  track := fun key row₀ _ hrow hp => ⟨row₀, hrow, OnTrack.refl hp (ho.good key row₀ hrow)⟩

/-- One statement was moved. -/
theorem Books.moved {s s' : Store} {key : String} {row₀ row row' : Row Statement}
    (hb : Books h s₀ s) (hrow₀ : s₀.statements.lookup key = some row₀)
    (hrow : s.statements.lookup key = some row)
    (hput : s'.statements = s.statements.insert key row') (hclaims : s'.claims = s.claims)
    (hrev : row.rev < row'.rev) (hm : Move h s.claims key row₀.value row.value row'.value) :
    Books h s₀ s' ∧ Later s s' := by
  have hlook : ∀ k r, s'.statements.lookup k = some r →
      (k = key ∧ r = row') ∨ s.statements.lookup k = some r := by
    intro k r hr
    rw [hput] at hr
    by_cases hk : k = key
    · subst hk
      rw [AList.lookup_insert] at hr
      exact .inl ⟨rfl, (Option.some.inj hr).symm⟩
    · rw [AList.lookup_insert_ne hk] at hr
      exact .inr hr
  have hafter : ∀ k r, s.statements.lookup k = some r → ∃ r', s'.statements.lookup k = some r' ∧
      (r' = r ∨ r.rev < r'.rev) ∧ (r.value.repaid → r'.value.repaid) := by
    intro k r hr
    rw [hput]
    by_cases hk : k = key
    · subst hk
      cases hrow.symm.trans hr
      exact ⟨row', AList.lookup_insert _, .inr hrev, fun hrep => (hm.repaid hrep).1⟩
    · exact ⟨r, by rw [AList.lookup_insert_ne hk]; exact hr, .inl rfl, id⟩
  refine ⟨⟨?_, ?_, ?_, ?_⟩, hafter, by rw [hclaims]; exact fun _ _ hc => hc⟩
  · intro k r hr
    rcases hlook k r hr with ⟨rfl, rfl⟩ | hr
    · exact ⟨row₀, hrow₀, hm.kin⟩
    · exact hb.kin k r hr
  · intro sig k hc
    rw [hclaims] at hc
    exact hb.claimed sig k hc
  · intro k r sig hr hs
    rw [hclaims]
    rcases hlook k r hr with ⟨rfl, rfl⟩ | hr
    · rcases hm.credit sig hs with hs | hc
      · exact hb.credited _ row sig hrow hs
      · exact hc
    · exact hb.credited k r sig hr hs
  · intro k r₀ a hr₀ hp
    obtain ⟨r, hr, ho⟩ := hb.track k r₀ a hr₀ hp
    by_cases heq : k = key
    · subst heq
      cases hrow.symm.trans hr
      cases hrow₀.symm.trans hr₀
      exact ⟨row', by rw [hput, AList.lookup_insert], hm.track a hp ho⟩
    · exact ⟨r, by rw [hput, AList.lookup_insert_ne heq]; exact hr, ho⟩

/-- A transaction that an open statement waits for is claimed for no other. -/
theorem Books.owner {s : Store} {key signature owner : String} {row₀ : Row Statement}
    (hb : Books h s₀ s) (hone : OneByOne h s₀) (hrow₀ : s₀.statements.lookup key = some row₀)
    (hs : row₀.value.awaitsIn h signature) (hc : s.claims.lookup signature = some owner) :
    owner = key := by
  rcases hb.claimed signature owner hc with hold | ⟨r₀, hr₀, hs'⟩
  · exact hone.unclaimed key row₀ signature owner hrow₀ hs hold
  · exact hone.apart owner r₀ key row₀ signature hr₀ hrow₀ hs' hs

/-- A transaction was claimed for a statement that waits for it. -/
theorem Books.claim {s : Store} {key signature : String} {row₀ : Row Statement}
    (hb : Books h s₀ s) (hone : OneByOne h s₀) (hrow₀ : s₀.statements.lookup key = some row₀)
    (hs : row₀.value.awaitsIn h signature) :
    Books h s₀ (s.claim signature key) ∧ Later s (s.claim signature key) ∧
      (s.claim signature key).claims.lookup signature = some key := by
  unfold Store.claim
  cases hc : s.claims.lookup signature with
  | some owner =>
    have howner := hb.owner hone hrow₀ hs hc
    exact ⟨hb, Later.refl s, by rw [hc, howner]⟩
  | none =>
    have hmono : ∀ sig k, s.claims.lookup sig = some k →
        (s.claims.insert signature key).lookup sig = some k := by
      intro sig k hk
      have hne : sig ≠ signature := by
        rintro rfl
        cases hc.symm.trans hk
      rw [AList.lookup_insert_ne hne]
      exact hk
    refine ⟨⟨hb.kin, ?_, ?_, hb.track⟩, ⟨?_, hmono⟩, AList.lookup_insert _⟩
    · intro sig k hk
      by_cases heq : sig = signature
      · subst heq
        rw [AList.lookup_insert] at hk
        cases hk
        exact .inr ⟨row₀, hrow₀, hs⟩
      · rw [AList.lookup_insert_ne heq] at hk
        exact hb.claimed sig k hk
    · exact fun k r sig hr hset => hmono sig k (hb.credited k r sig hr hset)
    · exact fun k r hr => ⟨r, hr, .inl rfl, id⟩

/-! ### The writes of a check -/

/-- The row a pass has read, the open attempt `x` it checks, and what they were at first. -/
structure Snapshot (h : History) (s₀ : Store) (key : String) (row₀ : Row Statement)
    (v : Statement) (a x : Attempt) : Prop where
  row : s₀.statements.lookup key = some row₀
  good : Good row₀.value
  kin : Kin h row₀.value v
  origin : a ∈ row₀.value.attempts
  follows : a.Follows h x
  mem : x ∈ v.attempts
  waits : x.state = .awaitingSettlement

/-- What a pass has read while the books are kept, with the attempt it goes on with. -/
theorem Books.snapshot {s : Store} {key : String} {row : Row Statement} {x : Attempt}
    (hb : Books h s₀ s)
    (hgood : ∀ key row, s₀.statements.lookup key = some row → Good row.value)
    (hrow : s.statements.lookup key = some row) (hmem : x ∈ row.value.attempts)
    (hwait : x.state = .awaitingSettlement) :
    ∃ row₀ a, Snapshot h s₀ key row₀ row.value a x := by
  obtain ⟨row₀, hrow₀, hkin⟩ := hb.kin key row hrow
  obtain ⟨a, ha, hfollows⟩ := hkin.attempts x hmem
  exact ⟨row₀, a, hrow₀, hgood key row₀ hrow₀, hkin, ha, hfollows, hmem, hwait⟩

section Writes

variable {claims : Table String String} {key signature : String} {row₀ : Row Statement}
  {u v : Statement} {a x : Attempt}

/-- The attempt of a snapshot of a paid statement is the paid one. -/
theorem Snapshot.paid (hs : Snapshot h s₀ key row₀ u a x) {b : Attempt}
    (hp : Paid h row₀.value b) : a = b :=
  hp.unique hs.good hs.origin (hs.follows.waits hs.waits)

/-- `update_attempt`: a statement on its way stays on it. -/
theorem Snapshot.marks (hs : Snapshot h s₀ key row₀ u a x) (hk : Kin h row₀.value v)
    {state : AttemptState} {f : Attempt → Attempt} (hstate : ∀ y, (f y).state = y.state)
    (hseq : ∀ y, (f y).seq = y.seq) (hnot : state ≠ .mismatch)
    (hf : ∀ y, a.Follows h y → a.Follows h (f { y with state := state }))
    (hopen : ∀ b, Paid h row₀.value b → v.repaid ∨ state = .awaitingSettlement) :
    Move h claims key row₀.value v (setAttempt v x.seq state f) := by
  have hkin : Kin h row₀.value (setAttempt v x.seq state f) := by
    refine hk.set rfl rfl id hseq fun y _ hid b hb hfb => ?_
    have hba : b = a :=
      hs.good.seq_inj hb hs.origin (hfb.seq.symm.trans (hid.trans hs.follows.seq))
    rw [hba] at hfb ⊢
    exact hf y hfb
  refine ⟨hkin, fun hr => ⟨hr, rfl⟩, fun sig hs => .inl hs, fun b hp ho => ⟨?_, ?_⟩⟩
  · intro y hy hyb
    rcases mem_setAttempt hy with ⟨z, hz, -, rfl⟩ | ⟨hy, -⟩
    · rw [hstate]
      exact hnot
    · exact ho.unmarked y hy hyb
  · rcases ho.way with hset | ⟨hsame, hwait⟩
    · exact .inl hset
    · refine .inr ⟨hsame, fun y hy hyb => ?_⟩
      rcases mem_setAttempt hy with ⟨z, hz, -, rfl⟩ | ⟨hy, -⟩
      · rcases hopen b hp with hr | hawait
        · exact absurd (takes_congr hsame) (by rw [hr, hp.takes]; decide)
        · rw [hstate]
          exact hawait
      · exact hwait y hy hyb

theorem Snapshot.verified (hs : Snapshot h s₀ key row₀ u a x) (hk : Kin h row₀.value v)
    {next : StatementState} (ht : transition v.state .receiptVerified = some next)
    (hclaim : claims.lookup signature = some key) (hset : a.settles h signature) :
    Move h claims key row₀.value v
      (recordVerified x.seq signature { v with state := next }) := by
  have hfrom := not_repaid (takesRepayment_of_transition ht (.inl rfl))
  have hnext := transition_verified ht
  subst hnext
  refine ⟨?_, fun hr => absurd hr hfrom, ?_, fun b hp ho => ⟨?_, ?_⟩⟩
  · refine hk.set rfl rfl (fun _ => rfl) (fun _ => rfl) fun y _ _ b _ hfb => ?_
    exact hfb.marked rfl rfl AttemptState.noConfusion
  · rintro sig ⟨-, r, hr, -, hmem⟩
    cases hr
    rw [List.mem_singleton.mp hmem]
    exact .inr hclaim
  · intro y hy hyb hm
    rcases mem_setAttempt hy with ⟨z, hz, -, rfl⟩ | ⟨hy, -⟩
    · cases hm
    · exact ho.unmarked y hy hyb hm
  · rw [← hs.paid hp]
    exact .inl ⟨signature, ⟨rfl, _, rfl, rfl, List.mem_singleton_self _⟩, hset⟩

theorem Move.mismatched {id : Nat} (hk : Kin h row₀.value v) {next : StatementState}
    {observed fields : List String} (ht : transition v.state .receiptMismatch = some next)
    (hnot : ∀ b, Paid h row₀.value b → v.repaid) :
    Move h claims key row₀.value v
      (recordMismatch id observed fields { v with state := next }) := by
  have hfrom := not_repaid (takesRepayment_of_transition ht (.inr rfl))
  have hnext := transition_mismatch ht
  subst hnext
  refine ⟨?_, fun hr => absurd hr hfrom, ?_, fun b hp => absurd (hnot b hp) hfrom⟩
  · refine hk.set rfl rfl (fun hr => absurd hr hfrom) (fun _ => rfl) fun y _ _ b _ hfb => ?_
    exact hfb.marked rfl rfl AttemptState.noConfusion
  · rintro sig ⟨hrep, -⟩
    cases hrep

end Writes

/-! ### The checks -/

variable (h) (s₀) (paysInto : Bytes → String → Option String)

/-- Checks run, with honest replies and reads that show an exact payout where they show any. -/
def booked : Discipline Store Op Op.Ans Env Request Ext CardsError Unit (Option String) where
  sys := watched paysInto
  terms := (polling h).and (clearing h s₀)
  Inv := Books h s₀
  Rely := Later
  Fault := fun _ _ => True
  refl := Later.refl
  trans := Later.trans

variable {h} {s₀} {paysInto} {b : Store} {g : Option String} {key : String} {id : Nat}

theorem safe_read {β : Type} {o : Op} {k : o.Ans → M β} {Q : Store → Option String → β → Prop}
    (hcalm : ∀ e s, (perform o e s).1 = s)
    (hk : ∀ s e, Replies h e → ClearReads h s₀ g s o e → Books h s₀ s → Later b s →
      (booked h s₀ paysInto).Safe Q (k (perform o e s).2) s (noteRead o g)) :
    (booked h s₀ paysInto).Safe Q (.await o k) b g :=
  Discipline.safe_calm hcalm fun s e hi hr hm => hk s e hm.1 hm.2 hi hr

theorem safe_need {β : Type} {Q : Store → Option String → β → Prop} {x : Option β}
    (hx : ∀ v, x = some v → Q b g v) : (booked h s₀ paysInto).Safe Q (need x) b g := by
  cases x with
  | none => trivial
  | some v => exact hx v rfl

theorem safe_getStatement :
    (booked h s₀ paysInto).Safe (fun s _ r => s.statements.lookup key = r)
      (getStatement key) b g :=
  safe_read (fun _ _ => rfl) fun _ _ _ _ _ _ => safe_need fun _ hv => getStatement_reply hv

theorem safe_statementRow :
    (booked h s₀ paysInto).Safe (fun s _ row => s.statements.lookup key = some row)
      (statementRow key) b g := by
  refine safe_getStatement.bind fun s g r hr => ?_
  cases r with
  | none => trivial
  | some row => exact hr

/-- What a pass knows of the row it reads first. -/
def Read (h : History) (s₀ : Store) (key : String) (row : Row Statement) : Prop :=
  ∀ row₀ a, s₀.statements.lookup key = some row₀ → Paid h row₀.value a →
    ClearWindow h a row.value

theorem safe_firstRead :
    (booked h s₀ paysInto).Safe (fun s g r => s.statements.lookup key = r ∧ g = some key ∧
      ∀ row, r = some row → Read h s₀ key row) (getStatement key) b none := by
  refine safe_read (fun _ _ => rfl) fun s e _ hc _ _ => safe_need fun r hv => ?_
  have hr := getStatement_reply hv
  refine ⟨hr, rfl, ?_⟩
  rintro row rfl row₀ a hrow₀ hp
  exact hc.window key row₀ a row hrow₀ hp rfl rfl hr

theorem safe_firstRow :
    (booked h s₀ paysInto).Safe (fun s g row => s.statements.lookup key = some row ∧
      g = some key ∧ Read h s₀ key row) (statementRow key) b none := by
  refine safe_firstRead.bind fun s g r hr => ?_
  cases r with
  | none => trivial
  | some row => exact ⟨hr.1, hr.2.1, hr.2.2 row rfl⟩

/-- A write against the row just read lands on that row or nowhere. -/
theorem safe_putStatement {row : Row Statement} {v : Statement} {about : Option Nat}
    (hb : b.statements.lookup key = some row)
    (hmove : ∀ s row₀, Books h s₀ s → Later b s → s.statements.lookup key = some row →
      s₀.statements.lookup key = some row₀ → Kin h row₀.value row.value →
      Move h s.claims key row₀.value row.value v) :
    (booked h s₀ paysInto).Safe anything (putStatement key v row.rev about) b g := by
  intro s e hi hr _
  have hnewer : Newer (some row) (s.statements.lookup key) := by
    rw [← hb]
    exact hr.newer key
  have hput : Books h s₀ { s with
      statements := (put s.statements key v (some row.rev) e.now).1 } ∧
      Later s { s with statements := (put s.statements key v (some row.rev) e.now).1 } := by
    rcases put_snapshot hnewer v e.now with ⟨hrow, hp⟩ | hp
    · rw [hp]
      obtain ⟨row₀, hrow₀, hkin⟩ := hi.kin key row hrow
      exact hi.moved hrow₀ hrow rfl rfl (Nat.lt_succ_self _) (hmove s row₀ hi hr hrow hrow₀ hkin)
    · rw [hp]
      exact ⟨hi, Later.refl s⟩
  have hstore : Books h s₀ (perform (.putStatement key v row.rev about) e s).1 ∧
      Later s (perform (.putStatement key v row.rev about) e s).1 := by
    rcases write_cases s e { s with statements := (put s.statements key v (some row.rev) e.now).1 }
      (put s.statements key v (some row.rev) e.now).2 with hw | hw
    · change Books h s₀ (s.write e _ _).1 ∧ Later s (s.write e _ _).1
      rw [hw]
      exact ⟨hi, Later.refl s⟩
    · change Books h s₀ (s.write e _ _).1 ∧ Later s (s.write e _ _).1
      rw [hw]
      exact hput
  exact ⟨hstore.1, hstore.2, safe_need fun _ _ => trivial⟩

/-- A transaction that an open statement waits for is claimed for it. -/
theorem safe_claimSettlements {signature : String} {row₀ : Row Statement} (hone : OneByOne h s₀)
    (hrow₀ : s₀.statements.lookup key = some row₀) (hset : row₀.value.awaitsIn h signature) :
    (booked h s₀ paysInto).Safe
      (fun s _ mine => mine = true ∧ s.claims.lookup signature = some key)
      (claimSettlements key signature) b g := by
  have hclaim : (booked h s₀ paysInto).Safe
      (fun s _ owner => owner = key ∧ s.claims.lookup signature = some key)
      (claimSettlement signature key) b g := by
    intro s e hi hr _
    change Books h s₀ (s.write e _ _).1 ∧ Later s (s.write e _ _).1 ∧
      (booked h s₀ paysInto).Safe _ (need (s.write e _ _).2) (s.write e _ _).1 _
    obtain ⟨hbooks, hlater, hl⟩ := hi.claim hone hrow₀ hset
    have howner : (s.claims.lookup signature).getD key = key := by
      cases hc : s.claims.lookup signature with
      | none => rfl
      | some owner => exact hi.owner hone hrow₀ hset hc
    unfold Store.write
    cases e.storage with
    | fine => exact ⟨hbooks, hlater, howner, hl⟩
    | lost => exact ⟨hi, Later.refl s, trivial⟩
    | late => exact ⟨hbooks, hlater, trivial⟩
  refine hclaim.bind fun s g owner ho => ?_
  exact ⟨decide_eq_true ho.1, ho.2⟩

/-! ### What a scan answers -/

theorem safe_listPages (hn : (signaturesOf h).Nodup) {cursor : Option String} (n : Nat)
    {before : Option String} (acc : List Listed) {rs : History}
    (hrs : (older (newer h cursor) before).reverse = rs) :
    (booked h s₀ paysInto).Safe
      (fun _ g r => g = some key ∧
        (r = none ∨ r = some (acc ++ (rs.take (PAGE_LIMIT * n)).map Landed.listed)))
      (listPages cursor n before acc) b (some key) := by
  induction n generalizing before acc rs b with
  | zero =>
    refine ⟨rfl, .inr ?_⟩
    simp
  | succ n ih =>
    refine safe_read (fun e s => rfl) fun s e he _ _ _ => ?_
    have hpage : page h before cursor = (rs.take PAGE_LIMIT).map Landed.listed := by
      rw [page, hrs]
    rw [noteRead_some]
    rcases he.signatures before cursor with hreply | hreply
    · simp only [perform, hreply, hpage]
      by_cases hfull : PAGE_LIMIT ≤ rs.length
      · rw [if_neg (page_full hfull)]
        refine (ih _ (older_page (newer_nodup hn) hrs hfull)).mono fun _ _ r hr => ?_
        rw [List.append_assoc, pages_succ] at hr
        exact hr
      · rw [if_pos (page_short hfull), pages_last hfull]
        exact ⟨rfl, .inr rfl⟩
    · simp only [perform, hreply]
      exact ⟨rfl, .inl rfl⟩

/-- Where a scan stops before these transactions, what is listed before them is clear, or the
statement is repaid already. -/
def CutClear (h : History) (s₀ s : Store) (key : String) (zs : History) : Prop :=
  ∀ row₀ a, s₀.statements.lookup key = some row₀ → Paid h row₀.value a → Repaid s key ∨
    ∀ ys, listing (newer h a.partnerCursor) = ys ++ zs → a.Clear (payouts a.clientRefId ys)

theorem ClearReads.cut {s : Store} {x : Landed} {e : Env} (hb : Books h s₀ s)
    (hc : ClearReads h s₀ (some key) s (.transaction x.signature) e)
    (hreply : e.transaction x.signature = some none) (zs : History) :
    CutClear h s₀ s key (x :: zs) := by
  intro row₀ a hrow₀ hp
  obtain ⟨row, hrow, -⟩ := hb.track key row₀ a hrow₀ hp
  cases htakes : takesRepayment row.value with
  | false => exact .inl ⟨row, hrow, htakes⟩
  | true =>
    exact .inr fun ys hys =>
      hc.served key row₀ a row hrow₀ hp rfl hrow htakes ys x zs hys rfl hreply

theorem safe_readListed {reference : String} {xs : History} (hxs : ∀ x ∈ xs, x ∈ h)
    {r : Reading} :
    (booked h s₀ paysInto).Safe
      (fun s _ answer => answer = none ∨ ∃ ys zs, ys ++ zs = xs ∧
        answer = some (readAll reference ys r) ∧ (zs = [] ∨ CutClear h s₀ s key zs))
      (readListed reference (xs.map Landed.listed) r) b (some key) := by
  induction xs generalizing r b with
  | nil => exact .inr ⟨[], [], rfl, rfl, .inl rfl⟩
  | cons x xs ih =>
    have hrest : ∀ y ∈ xs, y ∈ h := fun y hy => hxs y (List.mem_cons_of_mem _ hy)
    simp only [List.map_cons, readListed]
    by_cases hok : x.listed.ok = true
    · rw [if_pos hok]
      by_cases hread : TX_BUDGET ≤ r.read
      · rw [if_pos hread]
        refine .inr ⟨x :: xs, [], List.append_nil _, ?_, .inl rfl⟩
        rw [readAll, if_pos hok, if_pos hread]
      · rw [if_neg hread]
        refine safe_read (fun e s => rfl) fun s e he hc hb _ => ?_
        rw [noteRead_some]
        rcases he.transaction x (hxs x List.mem_cons_self) with hreply | hreply | hreply
        · change e.transaction x.listed.signature = _ at hreply
          simp only [perform, hreply]
          refine (ih hrest).mono fun s _ answer hanswer => hanswer.imp_right ?_
          rintro ⟨ys, zs, hys, hr, hcut⟩
          refine ⟨x :: ys, zs, by rw [← hys, List.cons_append], ?_, hcut⟩
          rw [readAll, if_pos hok, if_neg hread]
          exact hr
        · have hcut := ClearReads.cut hb hc hreply xs
          change e.transaction x.listed.signature = _ at hreply
          simp only [perform, hreply]
          exact .inr ⟨[], x :: xs, rfl, rfl, .inr hcut⟩
        · change e.transaction x.listed.signature = _ at hreply
          simp only [perform, hreply]
          exact .inl rfl
    · rw [if_neg hok]
      refine (ih hrest).mono fun s _ answer hanswer => hanswer.imp_right ?_
      rintro ⟨ys, zs, hys, hr, hcut⟩
      refine ⟨x :: ys, zs, by rw [← hys, List.cons_append], ?_, hcut⟩
      rw [readAll, if_neg hok]
      exact hr

theorem safe_scan (hn : (signaturesOf h).Nodup) {cursor : Option String} {reference : String} :
    (booked h s₀ paysInto).Safe
      (fun s _ r => r = .unavailable ∨ ∃ ys zs, ys ++ zs = listing (newer h cursor) ∧
        r = (readAll reference ys {}).answer ∧ (zs = [] ∨ CutClear h s₀ s key zs))
      (scan cursor reference) b (some key) := by
  refine (safe_listPages hn LIST_PAGES []
    (show (older (newer h cursor) none).reverse = _ from rfl)).bind fun s g listed hl => ?_
  obtain ⟨rfl, rfl | rfl⟩ := hl
  · exact .inl rfl
  · simp only [List.nil_append, ← List.map_reverse]
    have hin : ∀ x ∈ listing (newer h cursor), x ∈ h :=
      fun x hx => mem_newer ((listing_suffix _).subset hx)
    refine (safe_readListed hin).bind fun s g r hr => ?_
    rcases hr with rfl | ⟨ys, zs, hys, rfl, hcut⟩
    · exact .inl rfl
    · exact .inr ⟨ys, zs, hys, rfl, hcut⟩

/-! ### The passes -/

theorem safe_updateAttempt {state : AttemptState} {f : Attempt → Attempt}
    (hmove : ∀ s row row₀, Books h s₀ s → Later b s → s.statements.lookup key = some row →
      s₀.statements.lookup key = some row₀ → Kin h row₀.value row.value →
      Move h s.claims key row₀.value row.value (setAttempt row.value id state f))
    (n : Nat) (hb : Books h s₀ b) :
    (booked h s₀ paysInto).Safe anything (updateAttempt key id state f n) b g := by
  induction n generalizing b g with
  | zero => trivial
  | succ n ih =>
    refine safe_getStatement.seq hb fun s g r hr hs hon => ?_
    cases r with
    | none => trivial
    | some row =>
      have hput : (booked h s₀ paysInto).Safe anything
          (putStatement key (setAttempt row.value id state f) row.rev (some id)) s g :=
        safe_putStatement hr fun s' row₀ hs' hon' hrow' hrow₀ hkin =>
          hmove s' row row₀ hs' (hon.trans hon') hrow' hrow₀ hkin
      refine hput.seq hs fun s₂ g p _ hs₂ hon₂ => ?_
      cases p with
      | written r => trivial
      | conflict c =>
        refine ih (fun s' row' row₀ hs' hon' hrow' hrow₀ hkin => ?_) hs₂
        exact hmove s' row' row₀ hs' ((hon.trans hon₂).trans hon') hrow' hrow₀ hkin

theorem safe_applyEvent {event : StatementEvent} {f : Statement → Statement}
    (hmove : ∀ s row row₀ next, Later b s → s.statements.lookup key = some row →
      s₀.statements.lookup key = some row₀ → Kin h row₀.value row.value →
      transition row.value.state event = some next →
      Move h s.claims key row₀.value row.value (f { row.value with state := next }))
    (n : Nat) (hb : Books h s₀ b) :
    (booked h s₀ paysInto).Safe anything (applyEvent key event (some id) f n) b g := by
  induction n generalizing b g with
  | zero => trivial
  | succ n ih =>
    refine safe_getStatement.seq hb fun s g r hr hs hon => ?_
    cases r with
    | none => trivial
    | some row =>
      cases ht : transition row.value.state event with
      | none =>
        simp only [ht]
        trivial
      | some next =>
        simp only [ht]
        have hput : (booked h s₀ paysInto).Safe anything
            (putStatement key (f { row.value with state := next }) row.rev (some id)) s g :=
          safe_putStatement hr fun s' row₀ _ hon' hrow' hrow₀ hkin =>
            hmove s' row row₀ next (hon.trans hon') hrow' hrow₀ hkin ht
        refine hput.seq hs fun s₂ g p _ hs₂ hon₂ => ?_
        cases p with
        | written r => trivial
        | conflict c =>
          refine ih (fun s' row' row₀ next' hon' hrow' hrow₀ hkin ht' => ?_) hs₂
          exact hmove s' row' row₀ next' ((hon.trans hon₂).trans hon') hrow' hrow₀ hkin ht'

section Pass

variable {row₀ : Row Statement} {v : Statement} {a x : Attempt} {signature : String}

theorem safe_settleVerified (hb : Books h s₀ b) (hs : Snapshot h s₀ key row₀ v a x)
    (hclaim : b.claims.lookup signature = some key) (hset : a.settles h signature) :
    (booked h s₀ paysInto).Safe anything (settleVerified key x.seq signature) b g := by
  refine (safe_applyEvent ?_ RETRIES hb).bind fun s g r _ => ?_
  · intro s row r₀ next hon hrow hr₀ hkin ht
    cases hs.row.symm.trans hr₀
    exact hs.verified hkin ht (hon.claims signature key hclaim) hset
  · cases r with
    | some row => trivial
    | none =>
      refine safe_statementRow.bind fun s g row _ => ?_
      cases row.value.repayment with
      | none => trivial
      | some r =>
        by_cases hmine : r.attemptId = some x.seq ∧ r.method = .privatePayments ∧ r.mismatch = []
        · simp only [if_pos hmine]
          trivial
        · simp only [if_neg hmine]
          trivial

/-- No verdict against a paid statement, unless it is repaid already. -/
theorem safe_settleMismatch {observed fields : List String} (hb : Books h s₀ b)
    (hnot : ∀ row₀ a, s₀.statements.lookup key = some row₀ → Paid h row₀.value a →
      Repaid b key) :
    (booked h s₀ paysInto).Safe anything (settleMismatch key id observed fields) b g := by
  refine (safe_applyEvent ?_ RETRIES hb).bind fun s g r _ => ?_
  · intro s row r₀ next hon hrow hr₀ hkin ht
    refine Move.mismatched hkin ht fun c hp => ?_
    obtain ⟨row', hrow', hrep⟩ := hon.repaid (hnot r₀ c hr₀ hp)
    cases hrow'.symm.trans hrow
    exact hrep
  · cases r with
    | some row => trivial
    | none =>
      refine safe_statementRow.bind fun s g row _ => ?_
      cases row.value.repayment with
      | none => trivial
      | some r =>
        by_cases hmine : r.attemptId = some id
        · simp only [if_pos hmine]
          trivial
        · simp only [if_neg hmine]
          trivial

/-- The answer of `expectations`: the attempt's own terms. -/
theorem safe_expectations (hb : Books h s₀ b) (hs : Snapshot h s₀ key row₀ v a x) :
    (booked h s₀ paysInto).Safe
      (fun _ g r => g = some key ∧ r = (x.recipientTokenAccount, x.mint, x.amountBaseUnits))
      (expectations key v x) b (some key) := by
  have hcur : Paid h row₀.value a → Current v x :=
    fun hp => hp.current.of_follows hs.kin hs.follows
  have hdrift : ¬ Paid h row₀.value a → (booked h s₀ paysInto).Safe
      (fun _ g r => g = some key ∧ r = (x.recipientTokenAccount, x.mint, x.amountBaseUnits))
      (expectations.drifted key x) b (some key) := by
    intro hnot
    have hupdate : (booked h s₀ paysInto).Safe anything
        (updateAttempt key x.seq .stale (fun a => a) RETRIES) b (some key) := by
      refine safe_updateAttempt (fun s row r₀ _ _ _ hr₀ hkin => ?_) RETRIES hb
      cases hs.row.symm.trans hr₀
      refine hs.marks hkin (fun _ => rfl) (fun _ => rfl) AttemptState.noConfusion
        (fun y hy => hy.marked rfl rfl AttemptState.noConfusion) fun c hp => ?_
      rw [← hs.paid hp] at hp
      exact absurd hp hnot
    exact hupdate.bind fun _ _ _ _ => trivial
  unfold expectations partnerAccount
  cases hp : Connector.partnerTokenAccount with
  | none => trivial
  | some partner =>
    dsimp only [bind, Call.bind]
    cases hpay : payable v with
    | error e =>
      refine hdrift fun ht => ?_
      simp only [payable, if_neg (hcur ht).due] at hpay
      cases hpay
    | ok due =>
      have hdue : Paid h row₀.value a → due = v.amountDueCents := by
        intro ht
        simp only [payable, if_neg (hcur ht).due] at hpay
        exact (Except.ok.inj hpay).symm
      simp only
      cases hu : baseUnits due x.decimals with
      | none =>
        refine hdrift fun ht => ?_
        rw [hdue ht, (hcur ht).amount] at hu
        cases hu
      | some want =>
        simp only
        by_cases hfresh : x.amountBaseUnits = want ∧ x.recipientTokenAccount = partner ∧
            x.mint = Connector.mint
        · rw [if_pos hfresh]
          obtain ⟨hamount, hrec, hmint⟩ := hfresh
          refine ⟨rfl, ?_⟩
          rw [hamount, hrec, hmint]
        · rw [if_neg hfresh]
          refine hdrift fun ht => hfresh ⟨?_, ?_, (hcur ht).mint⟩
          · rw [hdue ht, (hcur ht).amount] at hu
            exact Option.some.inj hu
          · exact Option.some.inj ((hcur ht).partner.symm.trans hp)

theorem safe_moveCursor (hn : (signaturesOf h).Nodup) {advance : Option String} {ys : History}
    (hb : Books h s₀ b) (hs : Snapshot h s₀ key row₀ v a x)
    (hys : ys <+: listing (newer h x.partnerCursor))
    (hf : (readAll x.clientRefId ys {}).found = [])
    (ha : (readAll x.clientRefId ys {}).advance = advance) :
    (booked h s₀ paysInto).Safe anything (moveCursor key x advance) b g := by
  cases advance with
  | none => trivial
  | some next =>
    unfold moveCursor
    by_cases hsame : x.partnerCursor = some next
    · simp only [if_pos hsame]
      trivial
    · simp only [if_neg hsame]
      have hskip := (reading_skips hn hys hf ha).1
      rw [hs.follows.reference] at hskip
      refine safe_updateAttempt (fun s row r₀ _ _ _ hr₀ hkin => ?_) RETRIES hb
      cases hs.row.symm.trans hr₀
      refine hs.marks hkin (fun _ => rfl) (fun _ => rfl) AttemptState.noConfusion
        (fun y hy => ⟨hy.terms, hs.follows.skipped.trans hskip, fun _ => ?_⟩) fun _ _ => .inr rfl
      exact hs.follows.waits hs.waits

/-- What a scan has read of a paid statement's window is clear, or the statement is repaid. -/
theorem clear_of_scan {s : Store} {ys zs : History} (hs : Snapshot h s₀ key row₀ v a x)
    (htakes : takesRepayment v = true) (hp : Paid h row₀.value a)
    (hwindow : ClearWindow h a v) (hys : ys ++ zs = listing (newer h x.partnerCursor))
    (hcut : zs = [] ∨ CutClear h s₀ s key zs) :
    Repaid s key ∨ a.Clear (readAll x.clientRefId ys {}).found := by
  have hwhole := hwindow htakes x hs.mem hs.waits
  rw [hs.follows.reference]
  rcases hcut with rfl | hcut
  · rw [List.append_nil] at hys
    rw [hys]
    exact .inr hwhole
  · rcases reading_cut a.clientRefId hys with hfound | hall
    · rw [hfound]
      refine (hcut row₀ a hs.row hp).imp_right fun hclear => ?_
      obtain ⟨skipped, hskip, hnone⟩ := hs.follows.skipped
      have hbefore := hclear (skipped ++ ys) (by rw [hskip, ← hys, List.append_assoc])
      rwa [payouts_append, hnone, List.nil_append] at hbefore
    · rw [hall]
      exact .inr hwhole

/-- A verdict of a scan names the transaction that the attempt waits for. -/
theorem settles_of_scan {ys zs : History} {amount : Nat} (hs : Snapshot h s₀ key row₀ v a x)
    (hys : ys ++ zs = listing (newer h x.partnerCursor))
    (hc : check (readAll x.clientRefId ys {}).found x.amountBaseUnits x.mint
      x.recipientTokenAccount = .ok (signature, amount)) : a.settles h signature := by
  rw [← hs.follows.settles]
  exact ⟨amount, check_of_prefix (reading_found ⟨zs, hys⟩) hc⟩

theorem safe_checkAttempt (hn : (signaturesOf h).Nodup) (hone : OneByOne h s₀)
    (hgood : ∀ key row, s₀.statements.lookup key = some row → Good row.value)
    {row : Row Statement} (hb : Books h s₀ b) (hrow : b.statements.lookup key = some row)
    (hread : Read h s₀ key row) (htakes : takesRepayment row.value = true) :
    (booked h s₀ paysInto).Safe anything (checkAttempt key row.value id) b (some key) := by
  unfold checkAttempt
  cases hfind : row.value.attempt id with
  | none => trivial
  | some x =>
    have hmem : x ∈ row.value.attempts := List.mem_of_find?_eq_some hfind
    have hid : x.seq = id := by
      have hfound := List.find?_some hfind
      simpa only [decide_eq_true_eq] using hfound
    by_cases hspent : x.state ≠ .awaitingSettlement
    · simp only [if_pos hspent]
      trivial
    · have hwait : x.state = .awaitingSettlement := not_not.mp hspent
      obtain ⟨row₀, a, hs⟩ := hb.snapshot hgood hrow hmem hwait
      simp only [if_neg hspent]
      by_cases href : x.clientRefId = ""
      · simp only [if_pos href]
        trivial
      · simp only [if_neg href]
        rw [← hid]
        refine (safe_expectations hb hs).seq hb ?_
        rintro s g ⟨partner, mint, want⟩ ⟨rfl, hterms⟩ hbs hl
        cases hterms
        refine (safe_scan hn).seq hbs fun s₂ g answer hscan hbs₂ hl₂ => ?_
        rcases hscan with rfl | ⟨ys, zs, hys, rfl, hcut⟩
        · trivial
        · unfold Reading.answer
          by_cases hf : (readAll x.clientRefId ys {}).found = []
          · rw [if_pos hf]
            exact (safe_moveCursor hn hbs₂ hs ⟨zs, hys⟩ hf rfl).bind fun _ _ _ _ => trivial
          · rw [if_neg hf]
            cases hc : check (readAll x.clientRefId ys {}).found x.amountBaseUnits x.mint
                x.recipientTokenAccount with
            | error fields =>
              simp only [hc]
              refine safe_settleMismatch hbs₂ fun r₀ c hr₀ hp => ?_
              cases hs.row.symm.trans hr₀
              have hca := hs.paid hp
              subst hca
              rcases clear_of_scan hs htakes hp (hread row₀ a hs.row hp) hys hcut with hr | hclear
              · exact hr
              · obtain ⟨sig, amount, hok⟩ := hclear.check hf
                rw [hs.follows.check_eq] at hc
                cases hc.symm.trans hok
            | ok y =>
              obtain ⟨sig, amount⟩ := y
              simp only [hc]
              have hset := settles_of_scan hs hys hc
              have hawaits : row₀.value.awaitsIn h sig := by
                refine ⟨?_, a, hs.origin, hs.follows.waits hwait, hset⟩
                refine Bool.eq_true_of_not_eq_false fun hr => ?_
                cases (hs.kin.repaid hr).symm.trans htakes
              refine (safe_claimSettlements hone hs.row hawaits).seq hbs₂ ?_
              rintro s₃ g mine ⟨rfl, hclaim⟩ hbs₃ -
              exact safe_settleVerified hbs₃ hs hclaim hset

theorem safe_submit (hn : (signaturesOf h).Nodup) (hone : OneByOne h s₀)
    (hgood : ∀ key row, s₀.statements.lookup key = some row → Good row.value)
    (hb : Books h s₀ b) : (booked h s₀ paysInto).Safe anything (submit key id) b none := by
  refine safe_firstRow.seq hb ?_
  rintro s g row ⟨hrow, rfl, hread⟩ hs -
  cases payable row.value with
  | error e => trivial
  | ok due =>
    simp only [Call.ofExcept, Call.ret_bind]
    by_cases htakes : takesRepayment row.value = true
    · rw [if_pos htakes]
      exact (safe_checkAttempt hn hone hgood hs hrow hread htakes).map fun _ _ _ _ => trivial
    · rw [if_neg htakes]
      trivial

theorem safe_orphanCheck (hn : (signaturesOf h).Nodup) (hb : Books h s₀ b)
    (hs : Snapshot h s₀ key row₀ v a x) (hrep : Repaid b key) :
    (booked h s₀ paysInto).Safe anything (orphanCheck key x) b (some key) := by
  unfold orphanCheck partnerAccount
  cases Connector.partnerTokenAccount with
  | none => trivial
  | some partner =>
    change (booked h s₀ paysInto).Safe anything
      (scan x.partnerCursor x.clientRefId >>= _) b (some key)
    refine (safe_scan hn).seq hb fun s g answer hscan hs' hl => ?_
    rcases hscan with rfl | ⟨ys, zs, hys, rfl, -⟩
    · trivial
    · unfold Reading.answer
      by_cases hf : (readAll x.clientRefId ys {}).found = []
      · rw [if_pos hf]
        exact safe_moveCursor hn hs' hs ⟨zs, hys⟩ hf rfl
      · rw [if_neg hf]
        refine safe_updateAttempt (fun s₂ row r₀ _ hl₂ hrow hr₀ hkin => ?_) RETRIES hs'
        cases hs.row.symm.trans hr₀
        obtain ⟨row', hrow', hrep'⟩ := hl₂.repaid (hl.repaid hrep)
        cases hrow'.symm.trans hrow
        exact hs.marks hkin (fun _ => rfl) (fun _ => rfl) AttemptState.noConfusion
          (fun y hy => hy.marked rfl rfl AttemptState.noConfusion) fun _ _ => .inl hrep'

theorem safe_advanceOpenAttempt (hn : (signaturesOf h).Nodup) (hone : OneByOne h s₀)
    (hgood : ∀ key row, s₀.statements.lookup key = some row → Good row.value)
    (hb : Books h s₀ b) :
    (booked h s₀ paysInto).Safe anything (advanceOpenAttempt key) b none := by
  refine safe_firstRead.seq hb ?_
  rintro s g r ⟨hr, rfl, hread⟩ hs -
  cases r with
  | none => trivial
  | some row =>
    cases ho : row.value.openAttempt with
    | none =>
      simp only [ho]
      trivial
    | some x =>
      simp only [ho]
      by_cases htakes : takesRepayment row.value = true
      · rw [if_pos htakes]
        exact (safe_checkAttempt hn hone hgood hs hr (hread row rfl) htakes).map
          fun _ _ _ _ => trivial
      · rw [if_neg htakes]
        have hmem : x ∈ row.value.attempts := List.mem_of_find?_eq_some ho
        obtain ⟨row₀, a, hsnap⟩ := hs.snapshot hgood hr hmem (openAttempt_waits ho)
        have hrep : Repaid s key := ⟨row, hr, Bool.eq_false_iff.mpr htakes⟩
        exact (safe_orphanCheck hn hs hsnap hrep).bind fun _ _ _ _ => trivial

end Pass

variable (paysInto) in
theorem booked_rules (ho : Opening h s₀) (hone : OneByOne h s₀) :
    (booked h s₀ paysInto).Rules anything where
  entry := by
    intro r s hstart hs
    cases r with
    | prepare key => exact absurd rfl (hstart.1 key)
    | submit key id =>
      exact (safe_submit ho.finalized hone ho.good hs).map fun _ _ _ _ => trivial
    | cron key =>
      exact (safe_advanceOpenAttempt ho.finalized hone ho.good hs).map fun _ _ _ _ => trivial
  outside := fun _ _ hout => hout.1.elim

end

end Credits

end ChainPay.Repay
