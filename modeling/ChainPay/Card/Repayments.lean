import ChainPay.Card.Exec

/-!
Repayments over whole runs. The guard against crediting a statement twice is a ring
of the last `REPAYMENT_RING` accepted digests, so a digest is refused only while it
is among them. In every run that presents no digest from before that window, each
digest is accepted once, and what `record_repayment` takes off the balance is covered
by distinct ChainPay receipts.
-/

namespace ChainPay.Card
open ChainPay.Lib

/-- The digest a repayment presents. -/
def Label.digest : Label → Option Hash
  | .repay d _ => some d
  | _ => none

/-! ## The ring over a run -/

/-- Only a repayment writes the ring, and only a wipe empties it. -/
theorem Move.repayments_eq {signers : List Pubkey} {c c' : Credit} {l : Label}
    (hm : Move signers c l c') (hl : l ≠ .wipe) (hd : l.digest = none) :
    c'.terms.repayments = c.terms.repayments := by
  cases hm with
  | repay => cases hd
  | wipe => exact absurd rfl hl
  | terms _ _ _ _ _ _ _ _ hrep _ _ _ _ _ _ => exact hrep
  | restore _ _ _ _ _ _ _ _ hrep _ => exact hrep
  | roll _ hexp _ _ _ => rw [(Credit.Expire.frame hexp).1]
  | _ => rfl

/-- A successful repayment presents a digest outside the ring and pushes it. -/
theorem Move.repay_inv {signers : List Pubkey} {c c' : Credit} {l : Label} {d : Hash}
    (hm : Move signers c l c') (hd : l.digest = some d) :
    d ≠ 0 ∧ c.terms.repayments.contains d = false ∧
      c'.terms.repayments = c.terms.repayments.push d := by
  cases hm with
  | repay _ _ hne hnew _ =>
    cases hd
    exact ⟨hne, hnew, rfl⟩
  | _ => cases hd

section Program

variable [Runtime]

/-- The digests accepted by a run, oldest first. -/
def accepted (s : State) (calls : List Call) : List Hash :=
  Runs.logged exec (fun _ call _ => call.instr.label.digest.toList) s calls

/-- The run has no successful `restore` or `wipe_card`. -/
def NoReset (s : State) (calls : List Call) : Prop :=
  Runs.Along exec (fun _ call _ => call.instr.label ≠ .restore ∧ call.instr.label ≠ .wipe) s calls

instance (s : State) (calls : List Call) : Decidable (NoReset s calls) :=
  inferInstanceAs (Decidable (Runs.Along ..))

theorem Fresh.tracks {s : State} (hs : Fresh s) : Ring.Tracks 0 s.policy.repayments [] := by
  obtain ⟨b, hp, -⟩ := hs.eq
  rw [hp]
  exact Ring.tracks_init REPAYMENT_RING 0

/-- The ring is what pushing the accepted digests leaves. -/
theorem run_tracks {s : State} {calls : List Call} (hs : Fresh s) (hno : NoReset s calls) :
    Ring.Tracks 0 (Runs.after exec s calls).policy.repayments (accepted s calls) := by
  refine Runs.after_logged (I := fun s log => Ring.Tracks 0 s.credit.terms.repayments log) ?_ hno
    hs.tracks
  intro s call s' log hl hstep ht
  have hm := exec_move hstep
  cases hd : call.instr.label.digest with
  | none =>
    rw [hm.repayments_eq hl.2 hd, Option.toList_none, List.append_nil]
    exact ht
  | some d =>
    rw [(hm.repay_inv hd).2.2, Option.toList_some]
    exact Ring.push_tracks (by decide) (by decide) ht d

/-- A digest among the last `REPAYMENT_RING` accepted ones is refused. -/
theorem repeated_refused {s s' : State} {calls : List Call} {call : Call} {d : Hash}
    (hs : Fresh s) (hno : NoReset s calls) (hd : call.instr.label.digest = some d)
    (hstep : exec (Runs.after exec s calls) call = .ok s') :
    d ∉ (accepted s calls).drop ((accepted s calls).length - REPAYMENT_RING) := by
  obtain ⟨hne, hnew, -⟩ := (exec_move hstep).repay_inv hd
  intro hmem
  have hin := (Ring.contains_iff (by decide) (run_tracks hs hno) hne).mpr hmem
  change (Runs.after exec s calls).policy.repayments.contains d = false at hnew
  rw [hin] at hnew
  cases hnew

/-- The call presents no digest from before the last `REPAYMENT_RING` accepted ones. -/
def InWindow (log : List Hash) (call : Call) : Prop :=
  ∀ d ∈ call.instr.label.digest, d ∈ log → d ∈ log.drop (log.length - REPAYMENT_RING)

omit [Runtime] in
instance (log : List Hash) (call : Call) : Decidable (InWindow log call) :=
  match h : call.instr.label.digest with
  | none => .isTrue (by simp [InWindow, h])
  | some d =>
    decidable_of_iff (d ∈ log → d ∈ log.drop (log.length - REPAYMENT_RING))
      (by simp [InWindow, h])

/-- Every call of the run is in the window of what was accepted before it. -/
def Windowed (s : State) (calls : List Call) : Prop :=
  Runs.Sent exec (fun _ call _ => call.instr.label.digest.toList) InWindow s [] calls

instance (s : State) (calls : List Call) : Decidable (Windowed s calls) :=
  inferInstanceAs (Decidable (Runs.Sent ..))

theorem windowed_concat {s : State} {calls : List Call} {call : Call}
    (h : Windowed s (calls ++ [call])) : Windowed s calls ∧ InWindow (accepted s calls) call := by
  obtain ⟨hinit, hlast⟩ := (Runs.sent_append s [] calls [call]).mp h
  exact ⟨hinit, hlast.1⟩

/-- Inside the window every digest is accepted once. -/
theorem accepted_nodup {s : State} {calls : List Call} (hs : Fresh s) (hno : NoReset s calls)
    (hwin : Windowed s calls) : (accepted s calls).Nodup := by
  induction calls using List.reverseRecOn with
  | nil => exact List.nodup_nil
  | append_singleton calls call ih =>
    have hno' := (Runs.along_append s calls [call]).mp hno
    have hnodup := ih hno'.1 (windowed_concat hwin).1
    have happ : accepted s (calls ++ [call]) = accepted s calls ++
        accepted (Runs.after exec s calls) [call] := Runs.logged_append ..
    rw [happ]
    cases hstep : exec (Runs.after exec s calls) call with
    | error e =>
      have hnone : accepted (Runs.after exec s calls) [call] = [] :=
        Runs.logged_cons_error hstep
      rw [hnone, List.append_nil]
      exact hnodup
    | ok s' =>
      have hone : accepted (Runs.after exec s calls) [call] =
          call.instr.label.digest.toList ++ [] := Runs.logged_cons_ok hstep
      rw [hone, List.append_nil]
      cases hd : call.instr.label.digest with
      | none =>
        rw [Option.toList_none, List.append_nil]
        exact hnodup
      | some d =>
        rw [Option.toList_some]
        have hfresh : d ∉ accepted s calls := fun hmem =>
          repeated_refused hs hno'.1 hd hstep ((windowed_concat hwin).2 d hd hmem)
        rw [List.nodup_append]
        refine ⟨hnodup, List.nodup_singleton d, ?_⟩
        rintro x hx y hy rfl
        rw [List.mem_singleton] at hy
        exact hfresh (hy ▸ hx)

/-! ## Receipts -/

omit [Runtime] in
/-- The receipt account a `record_repayment` presents. -/
def Instr.receipt : Instr → Option AccountInfo
  | .recordRepayment _ _ _ r _ _ => some r
  | _ => none

omit [Runtime] in
/-- What a `record_repayment` took off the outstanding balance. -/
def repaid (s : State) (call : Call) (s' : State) : Nat :=
  match call.instr with
  | .recordRepayment .. =>
    s.policy.statementOutstandingCents - s'.policy.statementOutstandingCents
  | _ => 0

/-- The receipt a `record_repayment` verified, with the cents it proves paid. -/
def proven (s : State) (call : Call) (_ : State) : List (AccountInfo × Nat) :=
  match call.instr with
  | .recordRepayment _ d _ r t m =>
    match verifyRepaymentReceipt s.policy.binding d r t m with
    | .ok paid => [(r, paid)]
    | .error _ => []
  | _ => []

/-- The receipts behind the successful `record_repayment`s of a run. -/
def receipts (s : State) (calls : List Call) : List (AccountInfo × Nat) :=
  Runs.logged exec proven s calls

omit [Runtime] in
/-- The invoice hash a receipt account carries. -/
def invoiceOf (r : AccountInfo) : Option Hash :=
  match decodeChainpayReceipt r.data with
  | .ok fields => some fields.invoiceHash
  | .error _ => none

theorem verifyRepaymentReceipt_invoice {b : Pubkey} {d : Hash} {r t m : AccountInfo} {paid : Nat}
    (h : verifyRepaymentReceipt b d r t m = .ok paid) : invoiceOf r = some d := by
  simp only [verifyRepaymentReceipt, bind_eq_ok, exists_unit, ensure_eq_ok] at h
  obtain ⟨-, fields, hdec, _, -, ⟨-, hinvoice, -, -⟩, -⟩ := h
  simp only [invoiceOf, hdec, hinvoice]

/-- A successful `record_repayment` is covered by the receipt it verified. -/
theorem repaid_le_proven (s : State) (call : Call) (s' : State) (h : exec s call = .ok s') :
    repaid s call s' ≤ ((proven s call s').map Prod.snd).sum := by
  obtain ⟨ctx, instr⟩ := call
  cases instr with
  | recordRepayment k d a r t m =>
    obtain ⟨⟨paid, hver, hle⟩, hm⟩ := recordRepayment_move h
    have hout : s'.policy.statementOutstandingCents = s.policy.statementOutstandingCents - a := by
      change s'.credit.terms.outstanding = s.credit.terms.outstanding - a
      generalize s'.credit = c' at hm ⊢
      cases hm with
      | repay => rfl
    simp only [repaid, proven, hver, hout, List.map_cons, List.map_nil, List.sum_cons,
      List.sum_nil]
    omega
  | _ => exact Nat.zero_le _

/-- The invoices of the verified receipts are accepted digests. -/
theorem proven_invoices (s : State) (call : Call) (s' : State) (h : exec s call = .ok s') :
    List.Sublist ((proven s call s').map fun p => invoiceOf p.1)
      (call.instr.label.digest.toList.map some) := by
  obtain ⟨ctx, instr⟩ := call
  cases instr with
  | recordRepayment k d a r t m =>
    obtain ⟨⟨paid, hver, -⟩, -⟩ := recordRepayment_move h
    simp only [proven, hver, List.map_cons, List.map_nil, verifyRepaymentReceipt_invoice hver]
    exact List.Sublist.refl _
  | _ => exact List.nil_sublist _

theorem proven_receipt {s s' : State} {call : Call} {r : AccountInfo} {paid : Nat}
    (h : (r, paid) ∈ proven s call s') : call.instr.receipt = some r := by
  obtain ⟨ctx, instr⟩ := call
  cases instr with
  | recordRepayment k d a r' t m =>
    simp only [proven] at h
    split at h
    · rw [List.mem_singleton] at h
      cases h
      rfl
    · cases h
  | _ => cases h

/-- **Each statement repayment is credited once.** In every run without `restore` or
`wipe_card` that presents no digest from before the ring's window, no digest is
accepted twice, the receipts behind `record_repayment` are distinct accounts (each
account being what `chain` holds under its key), and they cover what it took off. -/
theorem repayments_once (s : State) (calls : List Call) (hs : Fresh s) (hno : NoReset s calls)
    (hwin : Windowed s calls) (chain : Pubkey → AccountInfo)
    (hchain : ∀ call ∈ calls, ∀ r ∈ call.instr.receipt, chain r.key = r) :
    (accepted s calls).Nodup ∧ ((receipts s calls).map fun p => p.1.key).Nodup ∧
      Runs.total exec repaid s calls ≤ ((receipts s calls).map Prod.snd).sum := by
  have honce := accepted_nodup hs hno hwin
  refine ⟨honce, ?_, Runs.total_le_logged repaid_le_proven s calls⟩
  have hinvoices : ((receipts s calls).map fun p => invoiceOf p.1).Nodup := by
    have hsub := Runs.logged_sublist (u := fun p : AccountInfo × Nat => invoiceOf p.1) (v := some) proven_invoices
      s calls
    exact (honce.map (Option.some_injective _)).sublist hsub
  -- a receipt is read off its key, so equal keys would carry equal invoices
  have hread : (receipts s calls).map (fun p => invoiceOf p.1) =
      ((receipts s calls).map fun p => p.1.key).map fun k => invoiceOf (chain k) := by
    rw [List.map_map]
    refine List.map_congr_left fun p hp => ?_
    obtain ⟨call, hcall, _, _, -, hmem⟩ := Runs.mem_logged hp
    have hr : chain p.1.key = p.1 := hchain call hcall p.1 (proven_receipt hmem)
    simp only [Function.comp_apply, hr]
  rw [hread] at hinvoices
  exact hinvoices.of_map _

end Program

/-! ## A receipt, paid once and presented twice -/

namespace Sample

def mintKey : Pubkey := key 60
def partnerAccount : Pubkey := key 61
def mandate : Pubkey := key 62

/-- The repay agent of the sample card. -/
def repayAgent : Pubkey :=
  0xf267aa71138320420247eeb8164c6eeb1cfc8030778f4b5ce8bc2775018568bd#256

/-- A settled version 1 receipt of two dollars, paid under `mandate` for the statement
`key 50`. -/
def receipt : AccountInfo where
  key := 0x870c6ae6adca587b3071f3d02d1e615cf15c72843773f30130e6ff17695a207a#256
  owner := CHAINPAY_ID
  data := [RECEIPT_DISCRIMINATOR, Hash.bytes mandate, Hash.bytes (key 50), Hash.bytes owner,
    Hash.bytes mintKey, Hash.bytes (key 63), Hash.bytes partnerAccount, leBytes 8 2000000,
    Hash.bytes repayAgent, Hash.bytes (key 64), leBytes 8 1800000000,
    [CHAINPAY_RECEIPT_SETTLED, 255]].flatten

def recipient : AccountInfo :=
  ⟨partnerAccount, SPL_TOKEN, Hash.bytes mintKey ++ List.replicate 133 0⟩

/-- A mint with six decimals. -/
def mint : AccountInfo :=
  ⟨mintKey, SPL_TOKEN, List.replicate 44 0 ++ [6] ++ List.replicate 37 0⟩

def record : Call :=
  byAuthorizer (.recordRepayment authorizer (key 50) 200 receipt recipient mint)

def recordPrivate (n : Nat) : Call :=
  byAuthorizer (.recordPrivateRepayment authorizer (key n) 100)

/-- A purchase of 3000, the repayment by receipt, `n` private ones, and the receipt
again. -/
def repayments (n : Nat) : List Call :=
  setup 5000 3000 50 ++ purchase 20 3000 true ++ [record] ++
    (List.range n).map (fun i => recordPrivate (51 + i)) ++ [record]

end Sample

open Sample in
/-- After two more repayments the receipt of the first is still refused. -/
theorem repayments_once_sample :
    let calls := repayments 2
    Fresh start ∧ NoReset start calls ∧ Windowed start calls ∧
      (accepted start calls).Nodup ∧ accepted start calls = [key 50, key 51, key 52] ∧
      Runs.total exec repaid start calls ≤ ((receipts start calls).map Prod.snd).sum := by
  intro calls
  have hno : NoReset start calls := by decide +kernel
  have hwin : Windowed start calls := by decide +kernel
  have hchain : ∀ call ∈ calls, ∀ r ∈ call.instr.receipt, (fun _ => receipt) r.key = r := by
    decide +kernel
  obtain ⟨honce, -, htotal⟩ := repayments_once start calls start_fresh hno hwin
    (fun _ => receipt) hchain
  exact ⟨start_fresh, hno, hwin, honce, by decide +kernel, htotal⟩

open Sample in
/-- After eight more it is credited a second time. -/
theorem repayment_credited_twice :
    let calls := repayments 8
    Fresh start ∧ NoReset start calls ∧
      (∀ call ∈ calls, ∀ r ∈ call.instr.receipt, r = receipt) ∧
      (accepted start calls).count (key 50) = 2 ∧
      (receipts start calls).map Prod.snd = [200, 200] ∧
      Runs.total exec repaid start calls = 400 := by
  intro calls
  refine ⟨start_fresh, ?_, ?_, ?_, ?_, ?_⟩ <;> decide +kernel

end ChainPay.Card
