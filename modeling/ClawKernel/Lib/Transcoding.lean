import ClawKernel.Lib.Utf8

/-! A text that is encoded is decoded again, without loss.
-/
namespace ClawKernel.Lib.Utf8

theorem toNat_ofNat_small (n : Nat) (small : n < 256) : (UInt8.ofNat n).toNat = n := by
  rw [UInt8.toNat_ofNat']
  exact Nat.mod_eq_of_lt small

theorem within_ofNat (range : Range) (n : Nat) (small : n < 256) :
    within range (UInt8.ofNat n) = decide (range.1.toNat ≤ n ∧ n ≤ range.2.toNat) := by
  unfold within
  rw [Bool.eq_iff_iff,Bool.and_eq_true,decide_eq_true_iff,decide_eq_true_iff,decide_eq_true_iff,UInt8.le_iff_toNat_le,
    UInt8.le_iff_toNat_le,toNat_ofNat_small n small]

/-- The ranges after a lead byte, by its number. -/
theorem tails_ofNat : ∀ n < 256, tails (UInt8.ofNat n) =
    if n < 128 then some []
    else if n < 194 then none
    else if n < 224 then some [anyTail]
    else if n = 224 then some [(0xA0,0xBF),anyTail]
    else if n = 237 then some [(0x80,0x9F),anyTail]
    else if n < 240 then some [anyTail,anyTail]
    else if n = 240 then some [(0x90,0xBF),anyTail,anyTail]
    else if n < 244 then some [anyTail,anyTail,anyTail]
    else if n = 244 then some [(0x80,0x8F),anyTail,anyTail]
    else none := by
  decide +kernel

/-- Continuations in their ranges are taken. -/
theorem take_ofNat (ranges : List Range) (bytes : List Nat) (rest : List UInt8)
    (fits : List.Forall₂ (fun range n => n < 256 ∧ range.1.toNat ≤ n ∧ n ≤ range.2.toNat) ranges bytes) :
    take ranges (bytes.map UInt8.ofNat ++ rest) = ⟨bytes.map UInt8.ofNat,rest,true⟩ := by
  induction fits with
  | nil => rfl
  | cons inside later ih =>
    obtain ⟨small,bounds⟩ := inside
    rw [List.map_cons,List.cons_append,take,within_ofNat _ _ small,if_pos (decide_eq_true bounds),ih]

theorem decodeOne_ofNat (lead : Nat) (ranges : List Range) (bytes : List Nat) (rest : List UInt8)
    (leads : tails (UInt8.ofNat lead) = some ranges)
    (fits : List.Forall₂ (fun range n => n < 256 ∧ range.1.toNat ≤ n ∧ n ≤ range.2.toNat) ranges bytes) :
    decodeOne (UInt8.ofNat lead) (bytes.map UInt8.ofNat ++ rest) =
      (Char.ofNat (codePoint (UInt8.ofNat lead) (bytes.map UInt8.ofNat)),rest) := by
  rw [decodeOne,leads]
  simp only [take_ofNat ranges bytes rest fits,if_true]

private theorem codePoint_ofNat (lead : Nat) (bytes : List Nat) (small : lead < 256) (tail : ∀ n ∈ bytes, n < 256) :
    codePoint (UInt8.ofNat lead) (bytes.map UInt8.ofNat) =
      if bytes = [] then lead
      else bytes.foldl (fun value n => value * 64 + n % 64) (lead % 2 ^ (6 - bytes.length)) := by
  have folded : ∀ (numbers : List Nat) (value : Nat), (∀ n ∈ numbers, n < 256) →
      (numbers.map UInt8.ofNat).foldl (fun value byte => value * 64 + byte.toNat % 64) value =
        numbers.foldl (fun value n => value * 64 + n % 64) value := by
    intro numbers
    induction numbers with
    | nil => exact fun _ _ => rfl
    | cons n numbers ih =>
      intro value fits
      rw [List.map_cons,List.foldl_cons,List.foldl_cons,toNat_ofNat_small n (fits n List.mem_cons_self)]
      exact ih _ (fun m member => fits m (List.mem_cons_of_mem n member))
  simp only [codePoint,List.map_eq_nil_iff,List.length_map,toNat_ofNat_small lead small]
  split
  · rfl
  · exact folded bytes _ tail

private abbrev Fits (range : Range) (n : Nat) : Prop :=
  n < 256 ∧ range.1.toNat ≤ n ∧ n ≤ range.2.toNat

private theorem fits_anyTail (n : Nat) : Fits anyTail (n % 0x40 + 0x80) :=
  ⟨by omega,show 128 ≤ _ by omega,show _ ≤ 191 by omega⟩

private theorem decodeOne_numbers (c : Char) (rest : List UInt8) (lead : Nat) (bytes : List Nat) (ranges : List Range)
    (small : lead < 256) (leads : tails (UInt8.ofNat lead) = some ranges) (fits : List.Forall₂ Fits ranges bytes)
    (value : (if bytes = [] then lead
      else bytes.foldl (fun value n => value * 64 + n % 64) (lead % 2 ^ (6 - bytes.length))) = c.toNat) :
    decodeOne (UInt8.ofNat lead) (bytes.map UInt8.ofNat ++ rest) = (c,rest) := by
  have tail : ∀ n ∈ bytes, n < 256 := by
    clear value leads
    induction fits with
    | nil => simp
    | cons inside later ih => exact List.forall_mem_cons.mpr ⟨inside.1,ih⟩
  rw [decodeOne_ofNat lead ranges bytes rest leads fits,codePoint_ofNat lead bytes small tail,value,Char.ofNat_toNat]

theorem utf8EncodeChar_eq (c : Char) : String.utf8EncodeChar c =
    if c.toNat ≤ 0x7f then [UInt8.ofNat c.toNat]
    else if c.toNat ≤ 0x7ff then
      [UInt8.ofNat (c.toNat / 64 % 0x20 + 0xc0),UInt8.ofNat (c.toNat % 0x40 + 0x80)]
    else if c.toNat ≤ 0xffff then
      [UInt8.ofNat (c.toNat / 4096 % 0x10 + 0xe0),UInt8.ofNat (c.toNat / 64 % 0x40 + 0x80),
        UInt8.ofNat (c.toNat % 0x40 + 0x80)]
    else
      [UInt8.ofNat (c.toNat / 262144 % 0x08 + 0xf0),UInt8.ofNat (c.toNat / 4096 % 0x40 + 0x80),
        UInt8.ofNat (c.toNat / 64 % 0x40 + 0x80),UInt8.ofNat (c.toNat % 0x40 + 0x80)] := rfl

/-- The bytes of a character are decoded to it. -/
theorem decodeOne_utf8EncodeChar (c : Char) (rest : List UInt8) :
    ∃ lead tail, String.utf8EncodeChar c = lead :: tail ∧ decodeOne lead (tail ++ rest) = (c,rest) := by
  have scalar : c.toNat < 0xD800 ∨ 0xDFFF < c.toNat ∧ c.toNat < 0x110000 := c.valid
  rw [utf8EncodeChar_eq]
  split_ifs with one two three
  · refine ⟨_,_,rfl,decodeOne_numbers c rest c.toNat [] [] (by omega) ?_ .nil rfl⟩
    rw [tails_ofNat _ (by omega),if_pos (by omega)]
  · refine ⟨_,_,rfl,decodeOne_numbers c rest (c.toNat / 64 % 0x20 + 0xc0) [c.toNat % 0x40 + 0x80] [anyTail]
      (by omega) ?_ (.cons (fits_anyTail _) .nil) ?_⟩
    · rw [tails_ofNat _ (by omega),if_neg (by omega),if_neg (by omega),if_pos (by omega)]
    · simp only [List.cons_ne_nil,if_false,List.foldl_cons,List.foldl_nil,List.length_singleton]
      omega
  · obtain ⟨range,leads,fits⟩ : ∃ range, tails (UInt8.ofNat (c.toNat / 4096 % 0x10 + 0xe0)) = some [range,anyTail] ∧
        Fits range (c.toNat / 64 % 0x40 + 0x80) := by
      rw [tails_ofNat _ (by omega),if_neg (by omega),if_neg (by omega),if_neg (by omega)]
      split_ifs
      · exact ⟨_,rfl,by omega,show 160 ≤ _ by omega,show _ ≤ 191 by omega⟩
      · exact ⟨_,rfl,by omega,show 128 ≤ _ by omega,show _ ≤ 159 by omega⟩
      · exact ⟨_,rfl,fits_anyTail _⟩
      all_goals omega
    refine ⟨_,_,rfl,decodeOne_numbers c rest (c.toNat / 4096 % 0x10 + 0xe0)
      [c.toNat / 64 % 0x40 + 0x80,c.toNat % 0x40 + 0x80] _ (by omega) leads (.cons fits (.cons (fits_anyTail _) .nil)) ?_⟩
    simp only [List.cons_ne_nil,if_false,List.foldl_cons,List.foldl_nil,List.length_cons,List.length_nil]
    omega
  · obtain ⟨range,leads,fits⟩ : ∃ range, tails (UInt8.ofNat (c.toNat / 262144 % 0x08 + 0xf0)) =
        some [range,anyTail,anyTail] ∧ Fits range (c.toNat / 4096 % 0x40 + 0x80) := by
      rw [tails_ofNat _ (by omega),if_neg (by omega),if_neg (by omega),if_neg (by omega),if_neg (by omega),
        if_neg (by omega),if_neg (by omega)]
      split_ifs
      · exact ⟨_,rfl,by omega,show 144 ≤ _ by omega,show _ ≤ 191 by omega⟩
      · exact ⟨_,rfl,fits_anyTail _⟩
      · exact ⟨_,rfl,by omega,show 128 ≤ _ by omega,show _ ≤ 143 by omega⟩
      all_goals omega
    refine ⟨_,_,rfl,decodeOne_numbers c rest (c.toNat / 262144 % 0x08 + 0xf0)
      [c.toNat / 4096 % 0x40 + 0x80,c.toNat / 64 % 0x40 + 0x80,c.toNat % 0x40 + 0x80] _ (by omega) leads
      (.cons fits (.cons (fits_anyTail _) (.cons (fits_anyTail _) .nil))) ?_⟩
    simp only [List.cons_ne_nil,if_false,List.foldl_cons,List.foldl_nil,List.length_cons,List.length_nil]
    omega

theorem lossy_encode_append (text : List Char) (rest : List UInt8) :
    lossy (encode text ++ rest) = text ++ lossy rest := by
  induction text with
  | nil => rfl
  | cons c text ih =>
    obtain ⟨lead,tail,bytes,decoded⟩ := decodeOne_utf8EncodeChar c (encode text ++ rest)
    have parts : encode (c :: text) ++ rest = lead :: (tail ++ (encode text ++ rest)) := by
      rw [encode,List.flatMap_cons,bytes,List.append_assoc]
      rfl
    rw [parts,lossy_cons,decoded,ih,List.cons_append]

@[simp] theorem lossy_encode (text : List Char) : lossy (encode text) = text := by
  have whole := lossy_encode_append text []
  rwa [List.append_nil,lossy_nil,List.append_nil] at whole

/-- Only a newline has the byte of one. -/
theorem newline_of_encode (text : List Char) (member : 10 ∈ encode text) : '\n' ∈ text := by
  obtain ⟨c,inside,byte⟩ := List.mem_flatMap.mp member
  have large (n : Nat) (above : 10 < n) (below : n < 256) : (10 : UInt8) ≠ UInt8.ofNat n := by
    intro same
    have value := congrArg UInt8.toNat same
    rw [UInt8.toNat_ofNat'] at value
    have ten : (10 : UInt8).toNat = 10 := rfl
    omega
  rw [utf8EncodeChar_eq] at byte
  split_ifs at byte with one two three
  · have value := congrArg UInt8.toNat (List.mem_singleton.mp byte)
    rw [UInt8.toNat_ofNat'] at value
    have ten : (10 : UInt8).toNat = 10 := rfl
    have code : c.toNat = 10 := by omega
    rw [← Char.ofNat_toNat c,code] at inside
    exact inside
  · simp only [List.mem_cons,List.not_mem_nil,or_false] at byte
    rcases byte with byte | byte <;> exact (large _ (by omega) (by omega) byte).elim
  · simp only [List.mem_cons,List.not_mem_nil,or_false] at byte
    rcases byte with byte | byte | byte <;> exact (large _ (by omega) (by omega) byte).elim
  · simp only [List.mem_cons,List.not_mem_nil,or_false] at byte
    rcases byte with byte | byte | byte | byte <;> exact (large _ (by omega) (by omega) byte).elim

end ClawKernel.Lib.Utf8
