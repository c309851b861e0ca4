import JourneyMatch.Correlation
import JourneyMatch.Proofs.Sorted.Utf8
import JourneyMatch.Store.Basic

/-
  This file shows that the key of an entry tells apart what
  it is made of. A subscription and a digest have no colon,
  so that a key is split at its first two colons; the text of
  a digest gives the digest back; and digests tell apart the
  identities that they are assumed to tell apart.

  A key begins with its own subscription and a colon, and
  with those of no other one, so that a scan for the keys of
  a subscription meets no key of its neighbours.

  Key definitions include:
    * `Separates`

  Main statements:
    * `Base64.encode_injective`
    * `colon_not_mem_identityDigest`
    * `pendingKey_injective`
    * `subscription_eq_of_startsWith`
    * `pendingKey_unambiguous`
-/

namespace JourneyMatch

------------------------------------------------------------
-- Base64
------------------------------------------------------------

namespace Base64

/- Digits of different values differ. -/
theorem digit_injective
    {m n : Nat}
    (hFirst : m < 64)
    (hSecond : n < 64)
    (hDigit : digit m = digit n) :
    m = n := by
  have hIndex :
      ∀ k : Fin 64,
        (List.range 64).findIdx? (digit · = digit k)
          = some k.val := by
    decide
  have hFound := hIndex ⟨m, hFirst⟩
  simp only [hDigit] at hFound
  exact Option.some.inj
    (hFound.symm.trans (hIndex ⟨n, hSecond⟩))

/- No digit is a colon. -/
theorem digit_ne_colon
    (n : Nat) :
    digit n ≠ ':' := by
  have hSmall : ∀ k : Fin 64, digit k ≠ ':' := by decide
  by_cases hBound : n < 64
  · exact hSmall ⟨n, hBound⟩
  · have hLast : digit n = '/' := by
      unfold digit
      rw [if_neg (by omega), if_neg (by omega),
        if_neg (by omega), if_neg (by omega)]
    rw [hLast]
    decide

theorem colon_not_mem_encode
    (bytes : List UInt8) :
    ':' ∉ encode bytes := by
  have hDigit : ∀ n, ¬ ':' = digit n := fun n hEq =>
    digit_ne_colon n hEq.symm
  induction bytes using encode.induct with
  | case1 => exact List.not_mem_nil
  | case2 a => simp [encode, hDigit]
  | case3 a b => simp [encode, hDigit]
  | case4 a b c rest ih => simp [encode, hDigit, ih]

/- The text of bytes gives the bytes back. -/
theorem encode_injective
    {xs ys : List UInt8}
    (hEncode : encode xs = encode ys) :
    xs = ys := by
  induction xs using encode.induct generalizing ys with
  | case1 =>
      match ys with
      | [] => rfl
      | [_] => cases hEncode
      | [_, _] => cases hEncode
      | _ :: _ :: _ :: _ => cases hEncode
  | case2 a =>
      have hA := a.toNat_lt
      match ys with
      | [] => cases hEncode
      | [x] =>
          have hX := x.toNat_lt
          simp only [encode, List.cons.injEq, and_true] at hEncode
          have hHigh :=
            digit_injective (by omega) (by omega) hEncode.1
          have hLow :=
            digit_injective (by omega) (by omega) hEncode.2
          have hSame : a.toNat = x.toNat := by omega
          rw [UInt8.toNat_inj.mp hSame]
      | [_, _] => simp [encode] at hEncode
      | _ :: _ :: _ :: _ => simp [encode] at hEncode
  | case3 a b =>
      have hA := a.toNat_lt
      have hB := b.toNat_lt
      match ys with
      | [] => cases hEncode
      | [_] => simp [encode] at hEncode
      | [x, y] =>
          have hX := x.toNat_lt
          have hY := y.toNat_lt
          simp only [encode, List.cons.injEq, and_true] at hEncode
          rcases hEncode with ⟨hFirst, hSecond, hThird⟩
          have hHigh :=
            digit_injective (by omega) (by omega) hFirst
          have hMiddle :=
            digit_injective (by omega) (by omega) hSecond
          have hLow :=
            digit_injective (by omega) (by omega) hThird
          have hA : a.toNat = x.toNat := by omega
          have hB : b.toNat = y.toNat := by omega
          rw [UInt8.toNat_inj.mp hA, UInt8.toNat_inj.mp hB]
      | _ :: _ :: _ :: _ => simp [encode] at hEncode
  | case4 a b c rest ih =>
      have hA := a.toNat_lt
      have hB := b.toNat_lt
      have hC := c.toNat_lt
      match ys with
      | [] => cases hEncode
      | [_] => simp [encode] at hEncode
      | [_, _] => simp [encode] at hEncode
      | x :: y :: z :: others =>
          have hX := x.toNat_lt
          have hY := y.toNat_lt
          have hZ := z.toNat_lt
          simp only [encode, List.cons.injEq] at hEncode
          rcases hEncode with
            ⟨hFirst, hSecond, hThird, hFourth, hRest⟩
          have hHigh :=
            digit_injective (by omega) (by omega) hFirst
          have hMiddle :=
            digit_injective (by omega) (by omega) hSecond
          have hNext :=
            digit_injective (by omega) (by omega) hThird
          have hLow :=
            digit_injective (by omega) (by omega) hFourth
          have hA : a.toNat = x.toNat := by omega
          have hB : b.toNat = y.toNat := by omega
          have hC : c.toNat = z.toNat := by omega
          rw [UInt8.toNat_inj.mp hA, UInt8.toNat_inj.mp hB,
            UInt8.toNat_inj.mp hC, ih hRest]

end Base64

------------------------------------------------------------
-- Keys
------------------------------------------------------------

/- Whether the digests of identities differ as they do. -/
def Separates
    (identities : String → Prop) : Prop :=
  ∀ a b,
    identities a →
      identities b →
        Sha256.digest a.toUTF8.data.toList
            = Sha256.digest b.toUTF8.data.toList →
          a = b

theorem colon_not_mem_identityDigest
    (identity : String) :
    ':' ∉ (identityDigest identity).toList := by
  rw [identityDigest, String.toList_ofList]
  exact Base64.colon_not_mem_encode _

/- Texts without a colon are found in front of the first. -/
theorem append_colon_injective
    {a b x y : List Char}
    (hFirst : ':' ∉ a)
    (hSecond : ':' ∉ b)
    (hText : a ++ ':' :: x = b ++ ':' :: y) :
    a = b ∧ x = y := by
  induction a generalizing b with
  | nil =>
      cases b with
      | nil =>
          cases hText
          exact ⟨rfl, rfl⟩
      | cons d b =>
          cases hText
          exact absurd List.mem_cons_self hSecond
  | cons c a ih =>
      cases b with
      | nil =>
          cases hText
          exact absurd List.mem_cons_self hFirst
      | cons d b =>
          rw [List.cons_append, List.cons_append,
            List.cons.injEq] at hText
          rcases hText with ⟨hHead, hTail⟩
          obtain ⟨hFront, hBack⟩ :=
            ih (fun hMem => hFirst (List.mem_cons_of_mem c hMem))
              (fun hMem => hSecond (List.mem_cons_of_mem d hMem))
              hTail
          exact ⟨by rw [hHead, hFront], hBack⟩

/- The characters of a key. -/
theorem toList_pendingKey
    (subscription identity : String)
    (chain : ChainId) :
    (pendingKey subscription
        (correlationKey identity chain)).toList
      = subscription.toList
        ++ ':' :: ((identityDigest identity).toList
          ++ ':' :: chain.text.toList) := by
  simp [pendingKey, subscriptionStart, correlationKey]

/- The first part of a key is its subscription. -/
theorem subscription_eq_of_pendingKey_eq
    {s t : String}
    {i j : String}
    {c d : ChainId}
    (hFirst : ValidSubscription s)
    (hSecond : ValidSubscription t)
    (hKey :
      pendingKey s (correlationKey i c)
        = pendingKey t (correlationKey j d)) :
    s = t ∧ correlationKey i c = correlationKey j d := by
  have hText := congrArg String.toList hKey
  rw [toList_pendingKey, toList_pendingKey] at hText
  rcases append_colon_injective hFirst.2 hSecond.2 hText with
    ⟨hFront, hBack⟩
  refine ⟨String.toList_injective hFront, ?_⟩
  apply String.toList_injective
  simpa [correlationKey] using hBack

/- A digest and a chain are told apart by their colon. -/
theorem chain_eq_of_correlationKey_eq
    {i j : String}
    {c d : ChainId}
    (hKey : correlationKey i c = correlationKey j d) :
    identityDigest i = identityDigest j ∧ c = d := by
  have hText := congrArg String.toList hKey
  simp only [correlationKey, String.toList_append] at hText
  rcases append_colon_injective
      (colon_not_mem_identityDigest i)
      (colon_not_mem_identityDigest j)
      (by simpa using hText) with
    ⟨hFront, hBack⟩
  exact ⟨String.toList_injective hFront,
    congrArg ChainId.mk (String.toList_injective hBack)⟩

/- A digest gives back an identity that it separates. -/
theorem identity_eq_of_identityDigest_eq
    {identities : String → Prop}
    (hSeparates : Separates identities)
    {i j : String}
    (hFirst : identities i)
    (hSecond : identities j)
    (hDigest : identityDigest i = identityDigest j) :
    i = j := by
  apply hSeparates i j hFirst hSecond
  apply Base64.encode_injective
  exact String.ofList_injective hDigest

/- A key gives back what it is made of. -/
theorem pendingKey_injective
    {identities : String → Prop}
    (hSeparates : Separates identities)
    {s t i j : String}
    {c d : ChainId}
    (hValid : ValidSubscription s)
    (hOther : ValidSubscription t)
    (hFirst : identities i)
    (hSecond : identities j)
    (hKey :
      pendingKey s (correlationKey i c)
        = pendingKey t (correlationKey j d)) :
    s = t ∧ i = j ∧ c = d := by
  rcases subscription_eq_of_pendingKey_eq
      hValid hOther hKey with
    ⟨hSubscription, hCorrelation⟩
  rcases chain_eq_of_correlationKey_eq hCorrelation with
    ⟨hDigest, hChain⟩
  exact ⟨hSubscription,
    identity_eq_of_identityDigest_eq hSeparates hFirst hSecond
      hDigest,
    hChain⟩

------------------------------------------------------------
-- What keys begin with
------------------------------------------------------------

theorem Level.startsWith_iff
    {start key : String} :
    startsWith start key = true ↔
      ∃ rest, start.toList ++ rest = key.toList :=
  List.isPrefixOf_iff_prefix

/- A key begins with a text if its bytes do. -/
theorem Level.startsWith_iff_utf8
    {start key : String} :
    startsWith start key = true ↔ utf8 start <+: utf8 key := by
  rw [utf8_isPrefix_iff]
  exact startsWith_iff

/- A key is of one subscription. -/
theorem subscription_eq_of_startsWith
    {s t key : String}
    (hFirst : ValidSubscription s)
    (hSecond : ValidSubscription t)
    (hKey : Level.startsWith (subscriptionStart s) key = true)
    (hOther : Level.startsWith (subscriptionStart t) key = true) :
    s = t := by
  rcases Level.startsWith_iff.mp hKey with ⟨x, hLeft⟩
  rcases Level.startsWith_iff.mp hOther with ⟨y, hRight⟩
  have hText := hLeft.trans hRight.symm
  simp only [subscriptionStart, String.toList_append,
    List.append_assoc] at hText
  exact String.toList_injective
    (append_colon_injective hFirst.2 hSecond.2 hText).1

/- A key begins with its own subscription. -/
theorem startsWith_pendingKey
    (subscription correlation : String) :
    Level.startsWith (subscriptionStart subscription)
        (pendingKey subscription correlation)
      = true :=
  Level.startsWith_iff.mpr
    ⟨correlation.toList, by
      rw [pendingKey, String.toList_append]⟩

theorem startsWith_pendingKey_iff
    {s t : String}
    (hFirst : ValidSubscription s)
    (hSecond : ValidSubscription t)
    (correlation : String) :
    Level.startsWith (subscriptionStart t)
          (pendingKey s correlation)
        = true
      ↔ s = t := by
  have hOwn := startsWith_pendingKey s correlation
  refine ⟨subscription_eq_of_startsWith hFirst hSecond hOwn, ?_⟩
  intro hSame
  rw [← hSame]
  exact hOwn

------------------------------------------------------------
-- What a key tells
------------------------------------------------------------

/-
  For valid subscriptions and any chains: among identities
  that digests tell apart, two keys are the same only if all
  that they are made of is; a key begins, in characters and
  in bytes, with the subscription that it is of and with no
  other; and whatever the digests do, keys that are the same
  have one subscription, one chain and one digest.
-/
theorem pendingKey_unambiguous
    {s t : String}
    (hFirst : ValidSubscription s)
    (hSecond : ValidSubscription t)
    (c d : ChainId) :
    (∀ identities, Separates identities →
        ∀ i j, identities i → identities j →
          (pendingKey s (correlationKey i c)
                = pendingKey t (correlationKey j d)
            ↔ s = t ∧ i = j ∧ c = d))
      ∧ (∀ i,
        (Level.startsWith (subscriptionStart t)
              (pendingKey s (correlationKey i c))
            = true
          ↔ s = t)
        ∧ (utf8 (subscriptionStart t)
              <+: utf8 (pendingKey s (correlationKey i c))
          ↔ s = t))
      ∧ ∀ i j,
        pendingKey s (correlationKey i c)
            = pendingKey t (correlationKey j d) →
          s = t
            ∧ c = d
            ∧ Sha256.digest (utf8 i) = Sha256.digest (utf8 j) := by
  refine ⟨?_, ?_, ?_⟩
  · intro identities hSeparates i j hLeft hRight
    constructor
    · exact pendingKey_injective hSeparates hFirst hSecond hLeft
        hRight
    · rintro ⟨hSubscription, hIdentity, hChain⟩
      rw [hSubscription, hIdentity, hChain]
  · intro i
    have hStarts :=
      startsWith_pendingKey_iff hFirst hSecond
        (correlationKey i c)
    exact ⟨hStarts, Level.startsWith_iff_utf8.symm.trans hStarts⟩
  · intro i j hKey
    rcases subscription_eq_of_pendingKey_eq
        hFirst hSecond hKey with
      ⟨hSubscription, hCorrelation⟩
    rcases chain_eq_of_correlationKey_eq hCorrelation with
      ⟨hDigest, hChain⟩
    exact
      ⟨hSubscription, hChain,
        Base64.encode_injective
          (String.ofList_injective hDigest)⟩

/- The digests of two identities differ. -/
theorem separates_twoSeen :
    Separates fun i => i = "0xabc" ∨ i = "0xabd" := by
  have hDiffer :
      Sha256.digest "0xabc".toUTF8.data.toList
        ≠ Sha256.digest "0xabd".toUTF8.data.toList := by
    decide +kernel
  rintro a b (rfl | rfl) (rfl | rfl) hDigest
  · rfl
  · exact absurd hDigest hDiffer
  · exact absurd hDigest.symm hDiffer
  · rfl

/-
  A subscription that begins like another one has keys of its
  own, also where the chain has colons in it, and a message
  has another key than one with another identity.
-/
theorem pendingKey_unambiguous_twoSeen :
    let chain : ChainId := ⟨"urn:ocn:polkadot:2034"⟩
    ValidSubscription "sub-1"
      ∧ ValidSubscription "sub-10"
      ∧ pendingKey "sub-1" (correlationKey "0xabc" chain)
        ≠ pendingKey "sub-10" (correlationKey "0xabc" chain)
      ∧ pendingKey "sub-1" (correlationKey "0xabc" chain)
        ≠ pendingKey "sub-1" (correlationKey "0xabd" chain)
      ∧ ¬ utf8 (subscriptionStart "sub-1")
        <+: utf8
          (pendingKey "sub-10" (correlationKey "0xabc" chain)) := by
  intro chain
  have hShort : ValidSubscription "sub-1" := by decide
  have hLong : ValidSubscription "sub-10" := by decide
  rcases pendingKey_unambiguous hShort hLong chain chain with
    ⟨hOther, -⟩
  rcases pendingKey_unambiguous hShort hShort chain chain with
    ⟨hSame, -⟩
  rcases pendingKey_unambiguous hLong hShort chain chain with
    ⟨-, hStarts, -⟩
  refine ⟨hShort, hLong, ?_, ?_, ?_⟩
  · intro hKey
    have hParts :=
      (hOther _ separates_twoSeen "0xabc" "0xabc" (.inl rfl)
        (.inl rfl)).mp hKey
    exact absurd hParts.1 (by decide)
  · intro hKey
    have hParts :=
      (hSame _ separates_twoSeen "0xabc" "0xabd" (.inl rfl)
        (.inr rfl)).mp hKey
    exact absurd hParts.2.1 (by decide)
  · intro hBytes
    exact absurd ((hStarts "0xabc").2.mp hBytes) (by decide)

end JourneyMatch
