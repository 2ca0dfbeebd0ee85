import ChainPay.Relay.Handlers

/-!
The relay as a system: any number of its handlers over one store, each stopping at any
await, while the chain finalizes transactions and receipts appear on it. An await either
leaves the claims, the rows and what was sent alone (`Op.calm`), or it is one of those the
results are about: a claim, a write of a payment or of its job, a send.
-/

namespace ChainPay.Relay
open ChainPay.Lib

inductive Request where
  | submit (principal : Principal) (request : PaymentSubmissionRequest)
  | submitManaged (principal : Principal) (request : ManagedPaymentSubmissionRequest)
  | recover (principal : Principal) (id signed : String) (resubmit : Bool)
  | cancel (principal : Principal) (kind : Option CancelKind) (key : String)
  | status (principal : Principal) (id : String)
  | context (principal : Principal) (id : String)

inductive Response where
  | payment (record : PaymentRecord)
  | cancelled (operationId : String)
  | context (record : PaymentRecord) (job : Job)

/-- What the chain does by itself. -/
inductive Ext where
  | finalized (signature : String) (ok : Bool)
  | receipt (address : String) (account : RpcAccount)

/-- The chain finalizes a signature's outcome, once. -/
def Store.finalize (s : Store) (signature : String) (ok : Bool) : Store :=
  match s.final.lookup signature with
  | some _ => s
  | none => { s with final := s.final.insert signature ok }

/-- A receipt account appears, once. -/
def Store.addReceipt (s : Store) (address : String) (account : RpcAccount) : Store :=
  match s.receipts.lookup address with
  | some _ => s
  | none => { s with receipts := s.receipts.insert address account }

def outside : Ext → Store → Store
  | .finalized signature ok, s => s.finalize signature ok
  | .receipt address account, s => s.addReceipt address account

/-- Whether a call has looked at the payment rows. -/
def looked : Op → Bool → Bool
  | .getPayment _, _ => true
  | _, g => g

/-- The relay with the calls `entry` that are made to it. -/
def system {Req α : Type} (entry : Req → M α) : System Store Op Op.Ans Env Req Ext ApiError α Bool where
  perform := perform
  entry := entry
  outside := outside
  first := false
  note := looked

section

variable [Deployment]

def handle : Request → M Response
  | .submit principal request => .payment <$> submitPayment principal request
  | .submitManaged principal request => .payment <$> submitManagedPayment principal request
  | .recover principal id signed resubmit =>
    .payment <$> recoverPayment principal id signed resubmit
  | .cancel principal kind key => .cancelled <$> cancelUnstarted principal kind key
  | .status principal id => .payment <$> paymentStatus principal id
  | .context principal id => (fun (record, job) => .context record job) <$> x402Context principal id

abbrev relay : System Store Op Op.Ans Env Request Ext ApiError Response Bool := system handle

end

/-! ## What an await may change -/

/-- The parts of the store that claims, writes, sends and the chain change. -/
structure SameCore (s s' : Store) : Prop where
  operations : s'.operations = s.operations
  payments : s'.payments = s.payments
  jobs : s'.jobs = s.jobs
  sent : s'.sent = s.sent
  final : s'.final = s.final
  receipts : s'.receipts = s.receipts

theorem SameCore.refl (s : Store) : SameCore s s := ⟨rfl, rfl, rfl, rfl, rfl, rfl⟩

/-- Neither a claim, a read or write of the payment, a write of its job, nor a send. -/
def Op.calm : Op → Bool
  | .getPayment _ | .claimOperation _ _ _ _ | .putPayment _ | .putX402 _ => false
  | .sendTransaction _ _ => false
  | _ => true

theorem write_cases {β : Type} (s : Store) (e : Env) (s' : Store) (v : β) :
    (s.write e s' v).1 = s ∧ (s.write e s' v).2 = none ∨
      (s.write e s' v).1 = s' ∧ ((s.write e s' v).2 = none ∨ (s.write e s' v).2 = some v) := by
  unfold Store.write
  cases e.storage with
  | fine => exact .inr ⟨rfl, .inr rfl⟩
  | lost => exact .inl ⟨rfl, rfl⟩
  | late => exact .inr ⟨rfl, .inl rfl⟩

theorem write_inv {β : Type} {I : Store → Prop} {s s' : Store} (h : I s) (h' : I s') (e : Env)
    (v : β) : I (s.write e s' v).1 := by
  rcases write_cases s e s' v with ⟨h₁, -⟩ | ⟨h₁, -⟩
  · rw [h₁]
    exact h
  · rw [h₁]
    exact h'

theorem read_snd {β : Type} (s : Store) (e : Env) (v : β) :
    (s.read e v).2 = none ∨ (s.read e v).2 = some v := by
  unfold Store.read
  split
  · exact .inr rfl
  · exact .inl rfl

theorem perform_calm {o : Op} (h : o.calm = true) (e : Env) (s : Store) :
    SameCore s (perform o e s).1 := by
  cases o with
  | claimOperation => cases h
  | putPayment => cases h
  | sendTransaction => cases h
  | putX402 => cases h
  | putManagedSigner signer =>
    have hc : SameCore s { s with signers := s.signers.insert signer.publicKey signer } :=
      ⟨rfl, rfl, rfl, rfl, rfl, rfl⟩
    exact write_inv (I := SameCore s) (.refl s) hc e ()
  | findPaymentByIdempotency _ => exact .refl s
  | operationRecord _ => exact .refl s
  | operationOwner _ => exact .refl s
  | getPayment _ => cases h
  | getTransaction _ => exact .refl s
  | findX402 _ => exact .refl s
  | findOtherJob _ _ _ => exact .refl s
  | putReceiptRequest => exact .refl s
  | findManagedSigner _ => exact .refl s
  | signTransaction _ _ => exact .refl s
  | accountInfo _ => exact .refl s
  | currentSlot => exact .refl s
  | signatureStatus _ => exact .refl s
  | blockhashValid _ => exact .refl s

/-! ## Answers of the store -/

section

variable {Req δ β : Type} {D : Discipline Store Op Op.Ans Env Req Ext ApiError δ Bool}
  {Q : Store → Bool → β → Prop} {s s' : Store} {e : Env} {v : β} {b : Store} {g : Bool}

theorem safe_need_read (hQ : Q b g v) (hF : D.Fault b .storage) :
    D.Safe Q (need (s.read e v).2) b g := by
  rcases read_snd s e v with h | h
  · rw [h]
    exact hF
  · rw [h]
    exact hQ

/-- A write that was answered has taken place. -/
theorem safe_need_write (hQ : b = s' → Q b g v) (hF : D.Fault b .storage)
    (hb : b = (s.write e s' v).1) : D.Safe Q (need (s.write e s' v).2) b g := by
  rcases write_cases s e s' v with ⟨-, h⟩ | ⟨h₁, h | h⟩
  · rw [h]
    exact hF
  · rw [h]
    exact hF
  · rw [h]
    exact hQ (hb.trans h₁)

end

/-! ## Calm calls -/

/-- Every await of the call is calm, and it fails only as `E` says. -/
def Calm {α : Type} (E : ApiError → Prop) : M α → Prop
  | .ret _ => True
  | .fail e => E e
  | .clock k => ∀ t, Calm E (k t)
  | .await o k => o.calm = true ∧ ∀ a, Calm E (k a)

section

variable {α β : Type} {E : ApiError → Prop}

theorem Calm.bind {c : M α} {f : α → M β} (h : Calm E c) (hf : ∀ a, Calm E (f a)) :
    Calm E (c >>= f) := by
  induction c with
  | ret a => exact hf a
  | fail e => exact h
  | clock k ih => exact fun t => ih t (h t)
  | await o k ih => exact ⟨h.1, fun a => ih a (h.2 a)⟩

@[simp] theorem calm_ret (a : α) : Calm E (.ret a : M α) := trivial

@[simp] theorem calm_pure (a : α) : Calm E (pure a : M α) := trivial

@[simp] theorem calm_fail (e : ApiError) : Calm E (.fail e : M α) ↔ E e := Iff.rfl

theorem calm_now : Calm E now := fun _ => trivial

theorem calm_need (h : E .storage) (a : Option α) : Calm E (need a) := by
  cases a with
  | none => exact h
  | some a => trivial

theorem calm_rpc (h : ∀ e, E (.rpc e)) (a : Except RpcError α) : Calm E (rpc a) := by
  cases a with
  | ok a => trivial
  | error e => exact h e

theorem calm_ofExcept {r : Except ApiError α} (h : ∀ e, r = .error e → E e) :
    Calm E (Call.ofExcept r : M α) := by
  cases r with
  | ok a => trivial
  | error e => exact h e rfl

/-- The errors of storage and RPC calls. -/
structure Admits (E : ApiError → Prop) : Prop where
  storage : E .storage
  rpc : ∀ e, E (.rpc e)

theorem calm_accountInfo (h : Admits E) (address : String) : Calm E (accountInfo address) :=
  ⟨rfl, calm_rpc h.rpc⟩

theorem calm_signatureStatus (h : ∀ e, E (.rpc e)) (signature : String) :
    Calm E (signatureStatus signature) :=
  ⟨rfl, calm_rpc h⟩

theorem calm_findPaymentByIdempotency (hs : E .storage) (key : String) :
    Calm E (findPaymentByIdempotency key) :=
  ⟨rfl, calm_need hs⟩

theorem calm_findManagedSigner (hs : E .storage) (publicKey : String) :
    Calm E (findManagedSigner publicKey) :=
  ⟨rfl, calm_need hs⟩

theorem calm_getTransaction (hs : E .storage) (id : String) : Calm E (getTransaction id) :=
  ⟨rfl, calm_need hs⟩

theorem calm_findOtherJob (hs : E .storage) (owner reference key : String) :
    Calm E (findOtherJob owner reference key) :=
  ⟨rfl, calm_need hs⟩

theorem calm_signTransaction (walletId unsigned : String) :
    Calm (fun _ => True) (signTransaction walletId unsigned) := by
  refine ⟨rfl, fun a => ?_⟩
  cases a with
  | none => trivial
  | some signed => trivial

theorem calm_activate (signer : ManagedSigner) : Calm (fun _ => True) (activate signer) := by
  unfold activate
  split
  · exact calm_now.bind fun _ => ⟨rfl, calm_need trivial⟩
  · trivial

theorem calm_canResubmit (signature : String) (tx : Transaction) :
    Calm (fun _ => True) (canResubmit signature tx) := by
  refine Calm.bind ⟨rfl, calm_rpc fun _ => trivial⟩ fun status => ?_
  split
  · trivial
  · refine Calm.bind ⟨rfl, calm_rpc fun _ => trivial⟩ fun valid => ?_
    split
    all_goals trivial

end

section

variable [R : Deployment] {E : ApiError → Prop}

theorem calm_validateLivePayment (request : PaymentSubmissionRequest) :
    Calm (fun _ => True) (validateLivePayment request) := by
  have hE : Admits fun _ => True := ⟨trivial, fun _ => trivial⟩
  refine (calm_ofExcept fun _ _ => trivial).bind fun tx => ?_
  unfold validateLivePaymentAt
  split
  · trivial
  · refine (calm_accountInfo hE _).bind fun account => ?_
    split
    · trivial
    · refine Calm.bind ⟨rfl, calm_rpc hE.rpc⟩ fun slot => ?_
      refine (calm_ofExcept fun _ _ => trivial).bind fun data => ?_
      split
      · trivial
      · refine (calm_accountInfo hE _).bind fun receipt => ?_
        split
        · trivial
        · exact calm_ofExcept fun _ _ => trivial

theorem calm_mandate (principal : Principal) (address tool : String) :
    Calm (fun _ => True) (mandate principal address tool) := by
  have hE : Admits fun _ => True := ⟨trivial, fun _ => trivial⟩
  unfold mandate
  split
  · trivial
  · refine Calm.bind ?_ fun data => ?_
    · unfold ownedMandateAccount
      split
      · trivial
      · refine (calm_accountInfo hE _).bind fun account => ?_
        repeat' split
        all_goals trivial
    · split
      all_goals trivial

theorem calm_checkLive (principal : Principal) (request : PaymentSubmissionRequest) :
    Calm (fun _ => True) (checkLive principal request) :=
  (calm_mandate principal _ _).bind fun _ => calm_validateLivePayment request

theorem calm_authorizePayment (principal : Principal) (record : PaymentRecord) (tool : String) :
    Calm (fun _ => True) (authorizePayment principal record tool) := by
  refine Calm.bind ⟨rfl, calm_need trivial⟩ fun owner => ?_
  split
  · split
    · trivial
    · split
      · trivial
      · exact calm_mandate principal _ _
  · exact calm_mandate principal _ _

theorem calm_announce (hs : E .storage) (record : PaymentRecord) (confirmedNow : Bool) :
    Calm E (announce record confirmedNow) := by
  unfold announce
  split
  · exact Calm.bind ⟨rfl, calm_need hs⟩ fun _ => trivial
  · trivial

theorem calm_keepReceiptRequest (request : PaymentSubmissionRequest) :
    Calm (fun _ => True) (keepReceiptRequest request) := by
  refine (calm_ofExcept fun _ _ => trivial).bind fun keep => ?_
  split
  · exact ⟨rfl, calm_need trivial⟩
  · trivial

theorem calm_requireCrossmint (request : PaymentSubmissionRequest) :
    Calm (fun _ => True) (requireCrossmintCheckoutEnabled request) := by
  unfold requireCrossmintCheckoutEnabled
  split
  all_goals trivial

theorem calm_verifyCrossmint (request : PaymentSubmissionRequest) (owner : String) :
    Calm (fun _ => True) (verifyCrossmintAuthorization request owner) := by
  unfold verifyCrossmintAuthorization
  split
  · trivial
  · exact calm_now.bind fun _ => calm_ofExcept fun _ _ => trivial

theorem calm_verifyManagedMandate (signer : ManagedSigner) (request : PaymentSubmissionRequest) :
    Calm (fun _ => True) (verifyManagedMandate signer request) := by
  have hE : Admits fun _ => True := ⟨trivial, fun _ => trivial⟩
  refine (calm_accountInfo hE _).bind fun account => ?_
  split
  · trivial
  · split
    · split
      · trivial
      split
      · trivial
      split
      · trivial
      split
      · trivial
      split
      · trivial
      · refine Calm.bind ⟨rfl, calm_rpc hE.rpc⟩ fun slot => ?_
        split
        all_goals trivial
    · trivial

end

end ChainPay.Relay
