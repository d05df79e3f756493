/-
Writing again what was read. An accepted image is written again with the
same length and, outside its decimal numbers, with the same bytes; a decimal
number comes back in normal form. So an image is canonical exactly if its
decimal numbers are (`encode_canonicalises`).

Where the decimal numbers of an image stand is said by a scan of its bytes
that knows the format and nothing of readers (`storedDecimals`): it counts
constants from the fourteenth byte on and skips the payload of each.
`Canonicalises` is the comparison of the two images, and it goes stretch by
stretch: constants one after the other, everything else unchanged.
-/
import StackMachine.Proofs.Image.Accepts

namespace StackMachine.Image

-- =================================================== the decimal numbers

/-- A decimal number as an image stores it, in normal form or not. -/
structure StoredDecimal where
  /-- The index in the image of its first byte: sixteen of mantissa,
  then one of scale. -/
  place : Nat
  mantissa : Int
  scale : Nat
  deriving DecidableEq

namespace StoredDecimal

/-- The byte with index `k` is one of the seventeen. -/
def Covers (d : StoredDecimal) (k : Nat) : Prop :=
  d.place ≤ k ∧ k < d.place + 17

def Normal (d : StoredDecimal) : Prop :=
  (d.mantissa = 0 ∧ d.scale = 0) ∨ d.scale = 0 ∨ ¬ 10 ∣ d.mantissa

/-- The number in normal form. -/
def reduced (d : StoredDecimal) : Int × Nat :=
  Decimal.reduce d.mantissa d.scale

end StoredDecimal

/-- How many bytes the payload of a constant takes, of those that follow its
tag. -/
def payloadSize (following : List UInt8) : Kind → Nat
  | .null => 0
  | .int | .float => 8
  | .decimal => 17
  | .bool => 1
  | .string => 4 + Bytes.toNat (following.take 4)

/-- The decimal numbers among `n` constants that start at `place`. -/
def decimalsFrom : (n place : Nat) → List UInt8 → List StoredDecimal
  | 0, _, _ => []
  | _ + 1, _, [] => []
  | n + 1, place, tag :: following =>
    match Kind.ofTag? tag with
    | none => []
    | some kind =>
      let size := payloadSize following kind
      let others := decimalsFrom n (place + 1 + size) (following.drop size)
      if kind = .decimal then
        ⟨place + 1, Bytes.toInt (following.take 16),
          Bytes.toNat ((following.drop 16).take 1)⟩
          :: others
      else others

/-- The decimal numbers of an image: ten bytes of header and entry, four of
the count of constants, and the constants. -/
def storedDecimals (image : List UInt8) : List StoredDecimal :=
  decimalsFrom (Bytes.toNat ((image.drop 10).take 4)) 14 (image.drop 14)

-- ============================================================== the scan

/-- The scan knows the size of every payload that fits. -/
theorem payloadSize_plain {v : Value}
    (h : ∀ w ∈ constantWords v, w.2 < UInt32.size) (hkind : v.kind ≠ .decimal)
    (rest : List UInt8) :
    payloadSize (payloadBytes v ++ rest) v.kind = (payloadBytes v).length := by
  cases v with
  | decimal d => exact absurd rfl hkind
  | string s =>
      have hlt : (utf8 s).length < UInt32.size := h _ List.mem_cons_self
      have htake : (textBytes s ++ rest).take 4
          = Bytes.ofNat 4 (utf8 s).length := by
        rw [textBytes, List.append_assoc,
          List.take_left' (Bytes.length_ofNat _ _)]
      show 4 + Bytes.toNat ((textBytes s ++ rest).take 4)
        = (textBytes s).length
      rw [htake, Bytes.toNat_ofNat hlt, textBytes, List.length_append,
        Bytes.length_ofNat]
  | _ => simp [payloadSize, payloadBytes, Value.kind]

/-- It passes over a constant that is no decimal number, whatever bytes that
holds. -/
theorem decimalsFrom_plain {v : Value}
    (h : ∀ w ∈ constantWords v, w.2 < UInt32.size) (hkind : v.kind ≠ .decimal)
    (n place : Nat) (rest : List UInt8) :
    decimalsFrom (n + 1) place (constantBytes v ++ rest)
      = decimalsFrom n (place + (constantBytes v).length) rest := by
  rw [constantBytes, List.cons_append, decimalsFrom, Kind.ofTag?_tag]
  simp only [payloadSize_plain h hkind, if_neg hkind, List.drop_left,
    List.length_cons]
  congr 1
  omega

/-- It notes a decimal number as it is stored and goes on behind it. -/
theorem decimalsFrom_decimal {mantissa : List UInt8}
    (hlength : mantissa.length = 16) (scale : UInt8) (n place : Nat)
    (rest : List UInt8) :
    decimalsFrom (n + 1) place
      (Kind.decimal.tag :: (mantissa ++ [scale]) ++ rest)
      = ⟨place + 1, Bytes.toInt mantissa, scale.toNat⟩ :: decimalsFrom n
        (place + 18) rest := by
  have htake : (mantissa ++ ([scale] ++ rest)).take 16 = mantissa :=
    List.take_left' hlength
  have hdrop : (mantissa ++ ([scale] ++ rest)).drop 16 = [scale] ++ rest :=
    List.drop_left' hlength
  have hrest : (mantissa ++ ([scale] ++ rest)).drop 17 = rest := by
    rw [← List.append_assoc]
    exact List.drop_left' (by simp [hlength])
  rw [List.cons_append, List.append_assoc, decimalsFrom, Kind.ofTag?_tag]
  simp only [payloadSize, if_true, htake, hdrop, hrest]
  simp [Bytes.toNat, Nat.add_assoc]

-- ======================================================== the comparison

/-- The second stretch, which starts at `place` as the first one does, is the
first one with these decimal numbers in normal form. -/
structure Canonicalises (place : Nat) (decimals : List StoredDecimal)
    (stored written : List UInt8) : Prop where
  length_eq : written.length = stored.length
  outside : ∀ k, (∀ d ∈ decimals, ¬ d.Covers (place + k)) →
    written[k]? = stored[k]?
  eq_iff : written = stored ↔ ∀ d ∈ decimals, d.Normal

namespace Canonicalises

theorem refl (place : Nat) (bytes : List UInt8) :
    Canonicalises place [] bytes bytes :=
  ⟨rfl, fun _ _ => rfl, by simp⟩

/-- Stretches one after the other are compared one after the other. -/
theorem append {place : Nat} {ds es : List StoredDecimal}
    {stored written stored' written' : List UInt8}
    (h : Canonicalises place ds stored written)
    (h' : Canonicalises (place + stored.length) es stored' written') :
    Canonicalises place (ds ++ es) (stored ++ stored')
      (written ++ written') := by
  refine ⟨?_, ?_, ?_⟩
  · rw [List.length_append, List.length_append, h.length_eq, h'.length_eq]
  · intro k hk
    have hds : ∀ d ∈ ds, ¬ d.Covers (place + k) :=
      fun d hd => hk d (List.mem_append_left _ hd)
    have hes : ∀ d ∈ es, ¬ d.Covers (place + k) :=
      fun d hd => hk d (List.mem_append_right _ hd)
    rw [List.getElem?_append, List.getElem?_append, h.length_eq]
    -- both stretches have the lengths they were stored with, so every byte
    -- is compared with its own
    by_cases hlt : k < stored.length
    · rw [if_pos hlt, if_pos hlt]
      exact h.outside k hds
    · rw [if_neg hlt, if_neg hlt]
      refine h'.outside (k - stored.length) ?_
      rwa [show place + stored.length + (k - stored.length)
        = place + k by omega]
  · rw [List.forall_mem_append, ← h.eq_iff, ← h'.eq_iff]
    constructor
    · intro heq
      exact List.append_inj heq h.length_eq
    · rintro ⟨rfl, rfl⟩
      rfl

/-- What stands around a stretch is left as it is. -/
theorem framed {place : Nat} {ds : List StoredDecimal}
    {stored written : List UInt8} (front rest : List UInt8)
    (h : Canonicalises (place + front.length) ds stored written) :
    Canonicalises place ds (front ++ stored ++ rest)
      (front ++ written ++ rest) := by
  have hall := ((refl place front).append h).append (refl _ rest)
  rwa [List.nil_append, List.append_nil] at hall

end Canonicalises

/-- Sixteen bytes hold the mantissa that they are read as. -/
theorem wrap_toNat {mantissa : List UInt8} (hlength : mantissa.length = 16) :
    (Wide.wrap (Bytes.toNat mantissa)).val = Bytes.toInt mantissa := by
  rw [Wide.val_wrap, Bytes.toInt, hlength, show Bytes.capacity 16 = _ from rfl]
  rfl

/-- A number in normal form is what its mantissa and scale were reduced to. -/
theorem reduce_of_new? {m : Wide} {s : Nat} {d : Decimal}
    (h : Decimal.new? m s = some d) :
    Decimal.reduce m.val s = (d.mantissa, d.scale) := by
  unfold Decimal.new? at h
  split at h
  · cases h
    rfl
  · cases h

/-- A decimal number is written as it was stored exactly if that was its
normal form. -/
theorem constantBytes_decimal_eq_iff (place : Nat) {mantissa : List UInt8}
    {scale : UInt8}
    {d : Decimal} (hlength : mantissa.length = 16)
    (hd : Decimal.new? (Wide.wrap (Bytes.toNat mantissa)) scale.toNat
      = some d) :
    constantBytes (.decimal d) = Kind.decimal.tag :: (mantissa ++ [scale])
      ↔ StoredDecimal.Normal ⟨place, Bytes.toInt mantissa, scale.toNat⟩ := by
  have hreduce := reduce_of_new? hd
  rw [wrap_toNat hlength] at hreduce
  -- both fields of the number fit the bytes they are written with
  have hmantissa : Bytes.toInt (Bytes.ofInt 16 d.mantissa) = d.mantissa := by
    have hrange := d.inWideRange
    have hcapacity : Bytes.capacity 16
        = 0x100000000000000000000000000000000 := by decide
    unfold InWideRange at hrange
    exact Bytes.toInt_ofInt_of_fits (by omega) (by omega)
  have hscale : (UInt8.ofNat d.scale).toNat = d.scale := by
    have hle : d.scale ≤ 28 := d.scale_le
    rw [UInt8.toNat_ofNat']
    omega
  unfold StoredDecimal.Normal
  constructor
  · intro heq
    obtain ⟨rfl, hlast⟩ :=
      List.append_inj (List.cons.inj heq).2 (by simp [hlength])
    obtain rfl : UInt8.ofNat d.scale = scale := by simpa using hlast
    simp only [hmantissa, hscale]
    rcases d.reduced with hzero | hdigit
    · exact .inr (.inl hzero)
    · exact .inr (.inr fun hdvd => hdigit (Int.emod_eq_zero_of_dvd hdvd))
  · -- what is reduced already is written back as it is
    intro hnormal
    have hself : scale.toNat = 0 ∨ Bytes.toInt mantissa % 10 ≠ 0 := by
      rcases hnormal with ⟨-, hzero⟩ | hzero | hdigit
      · exact .inl hzero
      · exact .inl hzero
      · exact .inr fun hmod => hdigit (Int.dvd_of_emod_eq_zero hmod)
    rw [Decimal.reduce_eq_self hself, Prod.mk.injEq] at hreduce
    show Kind.decimal.tag
      :: (Bytes.ofInt 16 d.mantissa ++ [UInt8.ofNat d.scale]) = _
    rw [← hreduce.1, ← hreduce.2, Bytes.ofInt_toInt hlength, UInt8.ofNat_toNat]

/-- A stored decimal number is written again in normal form, in the same
seventeen bytes. -/
theorem canonicalises_decimal (place : Nat) {mantissa : List UInt8}
    {scale : UInt8} {d : Decimal}
    (hlength : mantissa.length = 16)
    (hd : Decimal.new? (Wide.wrap (Bytes.toNat mantissa)) scale.toNat
      = some d) :
    Canonicalises place [⟨place + 1, Bytes.toInt mantissa, scale.toNat⟩]
      (Kind.decimal.tag :: (mantissa ++ [scale]))
      (constantBytes (.decimal d)) := by
  have hwritten : (constantBytes (.decimal d)).length = 18 := by
    show (_ :: (Bytes.ofInt 16 d.mantissa ++ [_])).length = 18
    simp
  refine ⟨by simp [hwritten, hlength], ?_, ?_⟩
  · intro k hk
    have hout : ¬ (place + 1 ≤ place + k ∧ place + k < place + 1 + 17) :=
      hk _ List.mem_cons_self
    cases k with
    | zero => rfl
    | succ k =>
        rw [List.getElem?_eq_none (by omega),
          List.getElem?_eq_none (by simp [hlength]; omega)]
  · rw [List.forall_mem_singleton]
    exact constantBytes_decimal_eq_iff (place + 1) hlength hd

/-- The constants of an image, written again. -/
theorem canonicalises_constants {chunks : List (List UInt8)} {vs : List Value}
    (h : List.Forall₂ Stored chunks vs) (place : Nat) (rest : List UInt8) :
    Canonicalises place (decimalsFrom vs.length place (chunks.flatten ++ rest))
      chunks.flatten (vs.flatMap constantBytes) := by
  induction h generalizing place with
  | nil => exact .refl place []
  | @cons chunk v chunks vs hstored _ ih =>
      have hrest := ih (place + chunk.length)
      rw [List.length_cons, List.flatten_cons, List.flatMap_cons,
        List.append_assoc]
      cases hstored with
      | plain hkind hfits =>
          rw [decimalsFrom_plain hfits hkind]
          exact (Canonicalises.refl place _).append hrest
      | @decimal mantissa scale d hlength hd =>
          have hsize : (Kind.decimal.tag :: (mantissa ++ [scale])).length
              = 18 := by
            simp [hlength]
          rw [decimalsFrom_decimal hlength, ← hsize]
          exact (canonicalises_decimal place hlength hd).append hrest

/-- The decimal number in a constant. -/
def decimalOf? : Value → Option (Int × Nat)
  | .decimal d => some (d.mantissa, d.scale)
  | _ => none

/-- The scan finds the decimal numbers among the constants, in order, as they
were stored. -/
theorem reduced_decimalsFrom {chunks : List (List UInt8)} {vs : List Value}
    (h : List.Forall₂ Stored chunks vs) (place : Nat) (rest : List UInt8) :
    (decimalsFrom vs.length place (chunks.flatten ++ rest)).map
      StoredDecimal.reduced
      = vs.filterMap decimalOf? := by
  induction h generalizing place with
  | nil => rfl
  | @cons chunk v chunks vs hstored _ ih =>
      rw [List.length_cons, List.flatten_cons, List.append_assoc]
      cases hstored with
      | plain hkind hfits =>
          have hnone : decimalOf? v = none := by
            cases v with
            | decimal d => exact absurd rfl hkind
            | _ => rfl
          -- the scan passes over it, as far as it was stored
          rw [decimalsFrom_plain hfits hkind, ih,
            List.filterMap_cons_none hnone]
      | @decimal mantissa scale d hlength hd =>
          have hreduced := reduce_of_new? hd
          rw [wrap_toNat hlength] at hreduced
          have hsome : decimalOf? (.decimal d) = some (d.mantissa, d.scale) :=
            rfl
          rw [decimalsFrom_decimal hlength, List.map_cons, ih,
            List.filterMap_cons_some hsome, StoredDecimal.reduced, hreduced]

-- =============================================================== images

/-- A program whose words fit is written. -/
theorem encode_of_fits {p : Program} (h : Fits p) :
    p.encode = .ok (imageBytes p) := by
  rw [encode_eq_written]
  refine written_eq_ok_iff.mpr ⟨?_, rfl⟩
  intro w hw
  simp only [words, List.mem_append, List.mem_cons, List.mem_flatMap,
    List.not_mem_nil, or_false] at hw
  rcases hw with (((((rfl | rfl) | ⟨v, hv, hw⟩) | rfl) | ⟨f, hf, hw⟩) | rfl)
  · exact h.entry
  · exact h.constantCount
  · exact h.constants v (Array.mem_toList_iff.mp hv) w hw
  · exact h.functionCount
  · exact h.functions f (Array.mem_toList_iff.mp hf) w hw
  · exact h.instructionCount

/-- The scan starts behind the count of constants. -/
theorem storedDecimals_eq {front count : List UInt8}
    (hfront : front.length = 10) (hcount : count.length = 4)
    (following : List UInt8) :
    storedDecimals (front ++ count ++ following)
      = decimalsFrom (Bytes.toNat count) 14 following := by
  have htake : ((front ++ count ++ following).drop 10).take 4 = count := by
    rw [List.append_assoc, List.drop_left' hfront, List.take_left' hcount]
  have hdrop : (front ++ count ++ following).drop 14 = following :=
    List.drop_left' (by simp [hfront, hcount])
  rw [storedDecimals, htake, hdrop]

/-- What was read from an image can be written. It is written with as many
bytes, and with the same ones except in the decimal numbers, which are those
of the program up to zeros at the end of a fraction; so it is written as it
was exactly if they were in normal form. -/
theorem encode_canonicalises {bytes : List UInt8} {p : Program}
    (h : Program.decode bytes = .ok p) :
    p.constants.toList.filterMap decimalOf?
      = (storedDecimals bytes).map StoredDecimal.reduced ∧
    ∃ written, p.encode = .ok written ∧ written.length = bytes.length ∧
      (∀ k, (∀ d ∈ storedDecimals bytes, ¬ d.Covers k) →
        written[k]? = bytes[k]?) ∧
      (written = bytes ↔ ∀ d ∈ storedDecimals bytes, d.Normal) := by
  obtain ⟨hfits, chunks, hstored, hbytes⟩ := stored_of_decode h
  -- the constants stand between what comes before and behind
  -- them in both images
  obtain ⟨front, hfront⟩ : ∃ front,
    front = magic ++ Bytes.ofNat 2 version.toNat
    ++ Bytes.ofNat 4 p.entry := ⟨_, rfl⟩
  obtain ⟨count, hcount⟩ : ∃ count, count = Bytes.ofNat 4 p.constants.size :=
    ⟨_, rfl⟩
  obtain ⟨rest, hrest⟩ : ∃ rest, rest = sectionBytes functionBytes p.functions
    ++ sectionBytes Instruction.encode p.code := ⟨_, rfl⟩
  have hread : bytes = front ++ count ++ chunks.flatten ++ rest := by
    simp [hbytes, hfront, hcount, hrest]
  have hwritten : imageBytes p
      = front ++ count ++ p.constants.toList.flatMap constantBytes
        ++ rest := by
    simp [imageBytes, sectionBytes, hfront, hcount, hrest]
  have hlength : (front ++ count).length = 14 := by
    simp [hfront, hcount, magic]
  have hdecimals : storedDecimals bytes
      = decimalsFrom p.constants.toList.length 14
        (chunks.flatten ++ rest) := by
    rw [hread, List.append_assoc (front ++ count),
      storedDecimals_eq (by simp [hfront, magic]) (by simp [hcount]), hcount,
      Bytes.toNat_ofNat hfits.constantCount, Array.length_toList]
  have himage : Canonicalises 0 (storedDecimals bytes) bytes
      (imageBytes p) := by
    rw [hdecimals, hread, hwritten]
    refine Canonicalises.framed (front ++ count) rest ?_
    rw [Nat.zero_add, hlength]
    exact canonicalises_constants hstored 14 rest
  refine ⟨?_, imageBytes p, encode_of_fits hfits, himage.length_eq, ?_,
    himage.eq_iff⟩
  · rw [hdecimals, reduced_decimalsFrom hstored]
  · intro k hk
    refine himage.outside k ?_
    rwa [Nat.zero_add]

/-- A hundred ten-thousandths are written as one hundredth, and nothing else
is changed. -/
theorem encode_looseProgram :
    Program.decode looseImage = .ok looseProgram ∧
    storedDecimals looseImage = [⟨15, 100, 4⟩] ∧
    ∃ written,
      looseProgram.encode = .ok written ∧ written.length = looseImage.length ∧
      written[14]? = some 3 ∧ written[32]? = looseImage[32]?
        ∧ written ≠ looseImage := by
  have hdecode : Program.decode looseImage = .ok looseProgram := rfl
  have hstored : storedDecimals looseImage = [⟨15, 100, 4⟩] := by decide
  obtain ⟨-, written, hencode, hlength, houtside, heq⟩ :=
    encode_canonicalises hdecode
  rw [hstored] at houtside heq
  refine ⟨hdecode, hstored, written, hencode, hlength, ?_, ?_, ?_⟩
  · rw [houtside 14 (by simp [StoredDecimal.Covers])]
    rfl
  · exact houtside 32 (by simp [StoredDecimal.Covers])
  · intro hsame
    have hnormal := heq.mp hsame _ List.mem_cons_self
    simp [StoredDecimal.Normal] at hnormal

end StackMachine.Image
