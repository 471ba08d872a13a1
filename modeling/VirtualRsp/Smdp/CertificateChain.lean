import Mathlib.Data.List.Chain
import VirtualRsp.Foundations.Loop
import VirtualRsp.Smdp.Certificates

/-!
# The length of a certificate chain

`verify_cert_chain` follows the authority key identifiers of certificates that the peer may have
chosen, so that only its depth counter makes it end. `chainBody` is a round of it, for any maximum
depth, `withIntermediates` a set of certificates after any additions, of which those that raise
change nothing.

The check always ends, and what it accepts is a sequence of certificates, each signed by the next
and the last by the root (`verifyCertChain_sequence`). The sequence is at most as long as the
maximum depth, or consists of the given certificate: the counter is compared after a parent has been
found, never before the first certificate is checked.
-/

namespace VirtualRsp.Smdp.CertificateSet

variable {Cert : Type}

/-- The sets of a root and of certificates that were added one after the other. -/
def withIntermediates (x : X509 Cert) (rootCert : Cert) (certs : List Cert) : CertificateSet Cert :=
  certs.foldl (fun cs cert => (cs.addIntermediateCert x cert).getD cs) ⟨rootCert, []⟩

/-- A round of `verify_cert_chain`, from the depth and the certificate to check. -/
def chainBody (x : X509 Cert) (cs : CertificateSet Cert) (maxDepth : ℤ) (s : ℤ × Cert) :
    Option (Ctl (ℤ × Cert) Verification) :=
  match x.authorityKeyIdentifier s.2, x.subjectKeyIdentifier cs.rootCert with
  | some aki, some rootCertId =>
    if aki = some rootCertId then
      some (.done (if x.verify s.2 cs.rootCert then .verified else .exception))
    else
      match aki.bind fun aki => cs.intermediateCerts.lookup aki with
      | none => some (.done .verifyError)
      | some parentCert =>
        if x.verify s.2 parentCert then
          if maxDepth < s.1 + 1 then some (.done .verifyError)
          else some (.next (s.1 + 1, parentCert))
        else some (.done .exception)
  | _, _ => some (.done .exception)

/-! ## The set -/

theorem withIntermediates_concat (x : X509 Cert) (rootCert : Cert) (certs : List Cert)
    (cert : Cert) : withIntermediates x rootCert (certs ++ [cert]) =
      ((withIntermediates x rootCert certs).addIntermediateCert x cert).getD
        (withIntermediates x rootCert certs) := by
  rw [withIntermediates, List.foldl_append]
  rfl

/-- A set keeps its root, and holds only certificates that were added. -/
theorem withIntermediates_sound (x : X509 Cert) (rootCert : Cert) (certs : List Cert) :
    (withIntermediates x rootCert certs).rootCert = rootCert ∧
      ∀ entry ∈ (withIntermediates x rootCert certs).intermediateCerts, entry.2 ∈ certs := by
  induction certs using List.reverseRecOn with
  | nil => exact ⟨rfl, fun entry h => absurd h List.not_mem_nil⟩
  | append_singleton certs cert ih =>
    rw [withIntermediates_concat]
    obtain ⟨hroot, hcerts⟩ := ih
    cases hadd : (withIntermediates x rootCert certs).addIntermediateCert x cert with
    | none => exact ⟨hroot, fun entry h => List.mem_append_left _ (hcerts entry h)⟩
    | some cs =>
      obtain ⟨ski, rfl⟩ := addIntermediateCert_eq hadd
      refine ⟨hroot, fun entry h => ?_⟩
      rcases List.mem_cons.1 h with rfl | h
      · exact List.mem_append_right _ (List.mem_singleton_self cert)
      · exact List.mem_append_left _ (hcerts entry (List.mem_filter.1 h).1)

/-! ## Rounds -/

variable {x : X509 Cert} {cs : CertificateSet Cert} {maxDepth : ℤ}

theorem chainBody_isSome (s : ℤ × Cert) : (chainBody x cs maxDepth s).isSome := by
  unfold chainBody
  split
  · split
    · rfl
    · split
      · rfl
      · split
        · split <;> rfl
        · rfl
  · rfl

/-- A certificate is followed by the certificate found under its authority key identifier, by whose
key it is signed. -/
def Link (x : X509 Cert) (cs : CertificateSet Cert) (c parent : Cert) : Prop :=
  x.verify c parent = true ∧
    ∃ aki, x.authorityKeyIdentifier c = some (some aki) ∧
      cs.intermediateCerts.lookup aki = some parent

/-- A round that goes on. -/
theorem chainBody_next {s s' : ℤ × Cert} (h : chainBody x cs maxDepth s = some (.next s')) :
    s'.1 = s.1 + 1 ∧ s.1 + 1 ≤ maxDepth ∧ Link x cs s.2 s'.2 := by
  unfold chainBody at h
  split at h
  · rename_i aki rootCertId haki hroot
    split at h
    · cases h
    · split at h
      · cases h
      · rename_i parent hparent
        split_ifs at h with hverify hdepth <;> cases h
        obtain ⟨keyId, rfl, hparent⟩ := Option.bind_eq_some_iff.1 hparent
        exact ⟨rfl, Int.not_lt.1 hdepth, hverify, keyId, haki, hparent⟩
  · cases h

/-- A round that accepts. -/
theorem chainBody_verified {s : ℤ × Cert}
    (h : chainBody x cs maxDepth s = some (.done .verified)) :
    x.verify s.2 cs.rootCert = true := by
  unfold chainBody at h
  split at h
  · split at h
    · split_ifs at h with hverify <;> cases h
      exact hverify
    · split at h
      · cases h
      · split_ifs at h <;> cases h
  · cases h

/-- **The check ends.** -/
theorem loop_chainBody_isSome (cert : Cert) {rounds : ℕ} (hrounds : maxDepth.toNat < rounds) :
    (loop (chainBody x cs maxDepth) rounds (1, cert)).isSome := by
  refine loop_isSome (fun s => (maxDepth - s.1).toNat) ?_ chainBody_isSome (by omega)
  rintro ⟨depth, c⟩ s' h
  obtain ⟨hdepth, hle, -⟩ := chainBody_next h
  omega

/-- What is accepted from some depth on. -/
theorem loop_chainBody_verified {rounds : ℕ} {depth : ℤ} {c : Cert}
    (h : loop (chainBody x cs maxDepth) rounds (depth, c) = some .verified) :
    ∃ chain : List Cert, depth + chain.length ≤ max maxDepth depth ∧
      (c :: chain).IsChain (Link x cs) ∧
      x.verify ((c :: chain).getLast (List.cons_ne_nil c chain)) cs.rootCert = true := by
  induction rounds generalizing depth c with
  | zero => cases h
  | succ rounds ih =>
    obtain ⟨ctl, hctl⟩ := Option.isSome_iff_exists.1 (chainBody_isSome (depth, c))
    cases ctl with
    | done b =>
      rw [loop_done hctl] at h
      cases h
      refine ⟨[], ?_, List.isChain_singleton c, chainBody_verified hctl⟩
      rw [List.length_nil]
      omega
    | next s' =>
      obtain ⟨depth', parent⟩ := s'
      obtain ⟨rfl, hle, hlink⟩ := chainBody_next hctl
      rw [loop_next hctl] at h
      obtain ⟨chain, hlen, hchain, hlast⟩ := ih h
      refine ⟨parent :: chain, ?_, List.isChain_cons_cons.2 ⟨hlink, hchain⟩, hlast⟩
      rw [List.length_cons]
      omega

/-- A round of both: what follows a parent is what the rest of the rounds give. -/
theorem loop_chainBody_step {n : ℕ} {depth : ℤ} (c : Cert)
    (h : ∀ parent, (if maxDepth < depth + 1 then some Verification.verifyError
      else loop (chainBody x cs maxDepth) n (depth + 1, parent)) =
        some (verifyLoop x cs n parent)) :
    loop (chainBody x cs maxDepth) (n + 1) (depth, c) = some (verifyLoop x cs (n + 1) c) := by
  rw [loop, verifyLoop, chainBody]
  cases x.authorityKeyIdentifier c with
  | none => rfl
  | some aki =>
    cases x.subjectKeyIdentifier cs.rootCert with
    | none => rfl
    | some rootCertId =>
      by_cases hroot : aki = some rootCertId
      · simp only [if_pos hroot]
      · simp only [if_neg hroot]
        cases aki.bind fun aki => cs.intermediateCerts.lookup aki with
        | none => rfl
        | some parent =>
          have hparent := h parent
          simp only
          split_ifs at hparent ⊢ <;> first | exact hparent | rfl

/-- The rounds that are left when the depth has come near its maximum. -/
theorem loop_chainBody_eq_verifyLoop (n : ℕ) {depth : ℤ} (c : Cert)
    (hdepth : depth + n = maxDepth) :
    loop (chainBody x cs maxDepth) (n + 1) (depth, c) = some (verifyLoop x cs (n + 1) c) := by
  induction n generalizing depth c with
  | zero =>
    refine loop_chainBody_step c fun parent => ?_
    rw [if_pos (by omega)]
    rfl
  | succ n ih =>
    refine loop_chainBody_step c fun parent => ?_
    rw [if_neg (by omega)]
    exact ih parent (by omega)

/-- A call without a maximum depth has the rounds of the maximum depth 100. -/
theorem loop_chainBody_eq (cert : Cert) :
    loop (chainBody x cs 100) 100 (1, cert) = some (cs.verifyCertChain x cert) :=
  loop_chainBody_eq_verifyLoop 99 cert rfl

/-- Every certificate behind the first is in the set. -/
theorem mem_of_isChain {c : Cert} {chain : List Cert} (h : (c :: chain).IsChain (Link x cs)) :
    ∀ parent ∈ chain, ∃ ski, (ski, parent) ∈ cs.intermediateCerts := by
  induction chain generalizing c with
  | nil => exact fun parent hmem => absurd hmem List.not_mem_nil
  | cons p chain ih =>
    obtain ⟨⟨-, aki, -, hlookup⟩, hchain⟩ := List.isChain_cons_cons.1 h
    have hp : ∃ ski, (ski, p) ∈ cs.intermediateCerts := by
      obtain ⟨before, behind, heq, -⟩ := List.lookup_eq_some_iff.1 hlookup
      exact ⟨aki, by rw [heq]; simp⟩
    exact List.forall_mem_cons.2 ⟨hp, ih hchain⟩

/-- **Chains.** After any additions, for any maximum depth, the check of a certificate ends, and
what it accepts is a sequence of certificates that starts with the given one: each is signed by the
next, which is an added certificate found under its authority key identifier, and the last is signed
by the root. The sequence is at most as long as the maximum depth, or has one certificate. -/
theorem verifyCertChain_sequence (x : X509 Cert) (rootCert : Cert) (certs : List Cert)
    (cert : Cert) (maxDepth : ℤ) :
    ∃ outcome, (∀ rounds, maxDepth.toNat < rounds →
        loop (chainBody x (withIntermediates x rootCert certs) maxDepth) rounds (1, cert) =
          some outcome) ∧
      (outcome = .verified → ∃ chain : List Cert,
        ((cert :: chain).length : ℤ) ≤ max maxDepth 1 ∧
        (cert :: chain).IsChain (Link x (withIntermediates x rootCert certs)) ∧
        (∀ c ∈ chain, c ∈ certs) ∧
        x.verify ((cert :: chain).getLast (List.cons_ne_nil cert chain)) rootCert = true) := by
  obtain ⟨hroot, hcerts⟩ := withIntermediates_sound x rootCert certs
  generalize withIntermediates x rootCert certs = cs at hroot hcerts ⊢
  have hends := @loop_chainBody_isSome _ x cs maxDepth cert _ (Nat.lt_succ_self maxDepth.toNat)
  obtain ⟨outcome, houtcome⟩ := Option.isSome_iff_exists.1 hends
  refine ⟨outcome, fun rounds hrounds => loop_mono hrounds houtcome, fun hverified => ?_⟩
  rw [hverified] at houtcome
  obtain ⟨chain, hlen, hchain, hlast⟩ := loop_chainBody_verified houtcome
  refine ⟨chain, ?_, hchain, ?_, hroot ▸ hlast⟩
  · rw [List.length_cons]
    omega
  · intro c hc
    obtain ⟨ski, hmem⟩ := mem_of_isChain hchain c hc
    exact hcerts _ hmem

/-- Certificates that sign each other, with a root. -/
def sampleChains : X509 ℕ where
  loadDerX509Certificate _ := none
  publicBytes _ := []
  subjectKeyIdentifier c := some [UInt8.ofNat c]
  authorityKeyIdentifier _ := some (some [0])
  certificatePolicies _ := none
  keyUsage _ := some (true, true)
  verify _ _ := true
  serialNumber _ := none
  permittedSerialNumbers _ := []
  permittedEins _ := []
  upper s := s
  strip s := s

/-- With a maximum depth of zero, a certificate that the root has signed is accepted. -/
theorem verifyCertChain_depth_zero :
    loop (chainBody sampleChains (withIntermediates sampleChains 0 []) 0) 1 (1, 7) =
      some .verified ∧
    ¬ ∃ chain : List ℕ, ((7 :: chain).length : ℤ) ≤ 0 := by
  refine ⟨by decide, ?_⟩
  rintro ⟨chain, hlen⟩
  rw [List.length_cons] at hlen
  omega

end VirtualRsp.Smdp.CertificateSet
