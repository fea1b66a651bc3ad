import Mathlib.Algebra.Order.Ring.Nat
import Mathlib.Tactic.SplitIfs

/-!
# Self-delimiting byte formats

A format writes a value as bytes and reads one value off the front of a byte string. Reading
undoes writing whatever bytes follow, and what is read is what would have been written: the two
laws are fields, so every format built from the combinators has them.

## Main definitions

* `Format α`: a writer and a reader with their two laws
* `uint w`, `u8`, `u32`, `u64`: little-endian integers of fixed width
* `Format.pair`, `Format.list`, `Format.convert`: sequencing, counted repetition, and a change of
  representation that may refuse
* `text`: UTF-8 strings behind their byte length
* `Format.Compact`: a value written in fewer than `2 ^ 64` bytes is one the format carries

## Main results

* `Format.read_write_nil`: reading exactly the written bytes
* `Format.pair_read_ok`: a sequence continues after its first part
* `Compact.pair`, `Compact.list`, `text_compact`: formats of bounded output carry every value
-/

namespace ByteFormat

/-- Why reading failed: the bytes end in a number or in the bytes of a string, or these bytes are
not UTF-8. -/
inductive ReadError
  | eofInNumber
  | eofInBytes
  | invalidUtf8 (bytes : List UInt8)
  deriving DecidableEq, Repr

/-- The bytes ended. -/
def ReadError.IsEof (e : ReadError) : Prop := e = .eofInNumber ∨ e = .eofInBytes

/-- A self-delimiting byte format. -/
structure Format (α : Type) where
  write : α → List UInt8
  read : List UInt8 → Except ReadError (α × List UInt8)
  /-- The values the format can carry. -/
  Fits : α → Prop
  read_write : ∀ a rest, Fits a → read (write a ++ rest) = .ok (a, rest)
  write_of_read : ∀ {bs a rest}, read bs = .ok (a, rest) → Fits a ∧ bs = write a ++ rest

variable {α β : Type}

namespace Format

theorem read_write_nil (f : Format α) {a : α} (ha : f.Fits a) :
    f.read (f.write a) = .ok (a, []) := by
  simpa using f.read_write a [] ha

/-! ## Changing the representation -/

/-- The format `f` read through `parse`, which may refuse, and written through `print`. -/
def convert (f : Format α) (parse : α → Except ReadError β) (print : β → α)
    (hparse : ∀ b, parse (print b) = .ok b)
    (hprint : ∀ a b, f.Fits a → parse a = .ok b → print b = a) : Format β where
  write b := f.write (print b)
  read bs :=
    match f.read bs with
    | .error e => .error e
    | .ok (a, rest) =>
      match parse a with
      | .error e => .error e
      | .ok b => .ok (b, rest)
  Fits b := f.Fits (print b)
  read_write b rest hb := by
    rw [f.read_write _ _ hb]
    simp only [hparse]
  write_of_read {bs b rest} h := by
    cases hr : f.read bs with
    | error e => simp [hr] at h
    | ok r =>
      obtain ⟨a, rest'⟩ := r
      obtain ⟨hfit, rfl⟩ := f.write_of_read hr
      cases ht : parse a with
      | error e => simp [hr, ht] at h
      | ok b' =>
        simp only [hr, ht, Except.ok.injEq, Prod.mk.injEq] at h
        obtain ⟨rfl, rfl⟩ := h
        obtain rfl := hprint a _ hfit ht
        exact ⟨hfit, rfl⟩

/-! ## Sequencing -/

/-- One value of `f`, then one of `g`. -/
def pair (f : Format α) (g : Format β) : Format (α × β) where
  write p := f.write p.1 ++ g.write p.2
  read bs :=
    match f.read bs with
    | .error e => .error e
    | .ok (a, rest) =>
      match g.read rest with
      | .error e => .error e
      | .ok (b, rest') => .ok ((a, b), rest')
  Fits p := f.Fits p.1 ∧ g.Fits p.2
  read_write p rest hp := by
    -- to `f`, the bytes of the second part are part of what follows
    rw [List.append_assoc, f.read_write _ _ hp.1]
    simp only [g.read_write _ _ hp.2]
  write_of_read {bs p rest} h := by
    cases hr : f.read bs with
    | error e => simp [hr] at h
    | ok r =>
      obtain ⟨a, rest₁⟩ := r
      obtain ⟨ha, rfl⟩ := f.write_of_read hr
      cases hs : g.read rest₁ with
      | error e => simp [hr, hs] at h
      | ok r' =>
        obtain ⟨b, rest₂⟩ := r'
        obtain ⟨hb, rfl⟩ := g.write_of_read hs
        simp only [hr, hs, Except.ok.injEq, Prod.mk.injEq] at h
        obtain ⟨rfl, rfl⟩ := h
        exact ⟨⟨ha, hb⟩, by rw [List.append_assoc]⟩

theorem pair_read_ok {f : Format α} {g : Format β} {bs rest : List UInt8} {a : α}
    (h : f.read bs = .ok (a, rest)) :
    (f.pair g).read bs =
      match g.read rest with
      | .error e => .error e
      | .ok (b, rest') => .ok ((a, b), rest') := by
  simp only [pair, h]

/-! ## Counted repetition -/

/-- Read `n` values of `f`. -/
def readN (f : Format α) : Nat → List UInt8 → Except ReadError (List α × List UInt8)
  | 0, bs => .ok ([], bs)
  | n + 1, bs =>
    match f.read bs with
    | .error e => .error e
    | .ok (a, rest) =>
      match readN f n rest with
      | .error e => .error e
      | .ok (as, rest') => .ok (a :: as, rest')

theorem readN_write (f : Format α) (as : List α) (rest : List UInt8) (h : ∀ a ∈ as, f.Fits a) :
    f.readN as.length (as.flatMap f.write ++ rest) = .ok (as, rest) := by
  induction as with
  | nil => rfl
  | cons a as ih =>
    rw [List.forall_mem_cons] at h
    rw [List.flatMap_cons, List.append_assoc, List.length_cons, readN, f.read_write _ _ h.1]
    simp only [ih h.2]

theorem write_of_readN (f : Format α) :
    ∀ {n : Nat} {bs rest : List UInt8} {as : List α}, f.readN n bs = .ok (as, rest) →
      as.length = n ∧ (∀ a ∈ as, f.Fits a) ∧ bs = as.flatMap f.write ++ rest := by
  -- Along the count, as `readN` recurses; the bytes left over vary.
  intro n
  induction n with
  | zero =>
    intro bs rest as h
    simp only [readN, Except.ok.injEq, Prod.mk.injEq] at h
    obtain ⟨rfl, rfl⟩ := h
    simp
  | succ n ih =>
    intro bs rest as h
    rw [readN] at h
    cases hr : f.read bs with
    | error e => simp [hr] at h
    | ok r =>
      obtain ⟨a, rest₁⟩ := r
      obtain ⟨ha, rfl⟩ := f.write_of_read hr
      cases hs : f.readN n rest₁ with
      | error e => simp [hr, hs] at h
      | ok r' =>
        obtain ⟨as', rest₂⟩ := r'
        obtain ⟨hlen, hfits, rfl⟩ := ih hs
        simp only [hr, hs, Except.ok.injEq, Prod.mk.injEq] at h
        obtain ⟨rfl, rfl⟩ := h
        refine ⟨by rw [List.length_cons, hlen], List.forall_mem_cons.mpr ⟨ha, hfits⟩, ?_⟩
        rw [List.flatMap_cons, List.append_assoc]

end Format

/-! ## Little-endian integers -/

/-- The `w` low bytes of `n`, lowest first. -/
def leBytes : Nat → Nat → List UInt8
  | 0, _ => []
  | w + 1, n => UInt8.ofNat n :: leBytes w (n / 256)

/-- The number written by the bytes, lowest first. -/
def leValue : List UInt8 → Nat
  | [] => 0
  | b :: bs => b.toNat + 256 * leValue bs

@[simp] theorem length_leBytes (w n : Nat) : (leBytes w n).length = w := by
  induction w generalizing n with
  | zero => rfl
  | succ w ih => rw [leBytes, List.length_cons, ih]

theorem leValue_leBytes (w : Nat) : ∀ n, n < 256 ^ w → leValue (leBytes w n) = n := by
  induction w with
  | zero =>
    intro n hn
    simp only [Nat.pow_zero] at hn
    simp only [leBytes, leValue]
    omega
  | succ w ih =>
    intro n hn
    rw [Nat.pow_succ'] at hn
    have hdiv : n / 256 < 256 ^ w := Nat.div_lt_of_lt_mul hn
    have hbyte : (UInt8.ofNat n).toNat = n % 256 := UInt8.toNat_ofNat'
    rw [leBytes, leValue, ih _ hdiv, hbyte]
    omega

theorem leBytes_leValue (bs : List UInt8) :
    leValue bs < 256 ^ bs.length ∧ leBytes bs.length (leValue bs) = bs := by
  induction bs with
  | nil => exact ⟨Nat.one_pos, rfl⟩
  | cons b bs ih =>
    have hb : b.toNat < 256 := b.toNat_lt
    refine ⟨?_, ?_⟩
    · rw [leValue, List.length_cons, Nat.pow_succ']
      omega
    · have hdiv : (b.toNat + 256 * leValue bs) / 256 = leValue bs := by omega
      rw [leValue, List.length_cons, leBytes, hdiv, ih.2]
      congr 1
      apply UInt8.toNat_inj.mp
      rw [UInt8.toNat_ofNat']
      omega

/-- Unsigned integers of `w` bytes. -/
def uint (w : Nat) : Format Nat where
  write n := leBytes w n
  read bs :=
    if bs.length < w then .error .eofInNumber
    else .ok (leValue (bs.take w), bs.drop w)
  Fits n := n < 256 ^ w
  read_write n rest hn := by
    rw [if_neg (by simp), List.take_left' (length_leBytes w n),
      List.drop_left' (length_leBytes w n), leValue_leBytes w n hn]
  write_of_read {bs n rest} h := by
    split_ifs at h with hlen
    simp only [Except.ok.injEq, Prod.mk.injEq] at h
    obtain ⟨rfl, rfl⟩ := h
    obtain ⟨hlt, heq⟩ := leBytes_leValue (bs.take w)
    rw [List.length_take, Nat.min_eq_left (Nat.not_lt.mp hlen)] at hlt heq
    exact ⟨hlt, by rw [heq, List.take_append_drop]⟩

/-- One byte. -/
def u8 : Format UInt8 :=
  (uint 1).convert (fun n => .ok (UInt8.ofNat n)) UInt8.toNat
    (fun b => by rw [UInt8.ofNat_toNat])
    (fun a b ha h => by
      obtain rfl := Except.ok.inj h
      exact UInt8.toNat_ofNat_of_lt ha)

/-- A `u32`, in four bytes. -/
def u32 : Format UInt32 :=
  (uint 4).convert (fun n => .ok (UInt32.ofNat n)) UInt32.toNat
    (fun b => by rw [UInt32.ofNat_toNat])
    (fun a b ha h => by
      obtain rfl := Except.ok.inj h
      exact UInt32.toNat_ofNat_of_lt ha)

/-- A length, in eight bytes. -/
def u64 : Format Nat := uint 8

theorem u8_fits (b : UInt8) : u8.Fits b := b.toNat_lt

theorem u32_fits (n : UInt32) : u32.Fits n := n.toNat_lt

@[simp] theorem length_u8_write (b : UInt8) : (u8.write b).length = 1 := length_leBytes 1 _

@[simp] theorem length_u32_write (n : UInt32) : (u32.write n).length = 4 := length_leBytes 4 _

@[simp] theorem length_u64_write (n : Nat) : (u64.write n).length = 8 := length_leBytes 8 n

/-- A counted list: its length in eight bytes, then its elements. -/
def Format.list (f : Format α) : Format (List α) where
  write as := u64.write as.length ++ as.flatMap f.write
  read bs :=
    match u64.read bs with
    | .error e => .error e
    | .ok (n, rest) => f.readN n rest
  Fits as := as.length < 2 ^ 64 ∧ ∀ a ∈ as, f.Fits a
  read_write as rest h := by
    rw [List.append_assoc, u64.read_write _ _ h.1]
    exact f.readN_write as rest h.2
  write_of_read {bs as rest} h := by
    cases hr : u64.read bs with
    | error e => simp [hr] at h
    | ok r =>
      obtain ⟨n, rest₁⟩ := r
      obtain ⟨hn, rfl⟩ := u64.write_of_read hr
      simp only [hr] at h
      -- as many elements were read as the count announced, so writing them writes that count
      obtain ⟨rfl, hfits, rfl⟩ := f.write_of_readN h
      exact ⟨⟨hn, hfits⟩, by rw [List.append_assoc]⟩

theorem Format.list_read_nil (f : Format α) : f.list.read [] = .error .eofInNumber := rfl

/-! ## Text -/

/-- Raw bytes behind their length. -/
def blob : Format (List UInt8) where
  write bs := u64.write bs.length ++ bs
  read bs :=
    match u64.read bs with
    | .error e => .error e
    | .ok (n, rest) =>
      if rest.length < n then .error .eofInBytes else .ok (rest.take n, rest.drop n)
  Fits bs := bs.length < 2 ^ 64
  read_write bs rest h := by
    rw [List.append_assoc, u64.read_write _ _ h]
    simp
  write_of_read {bs as rest} h := by
    cases hr : u64.read bs with
    | error e => simp [hr] at h
    | ok r =>
      obtain ⟨n, rest₁⟩ := r
      obtain ⟨hn, rfl⟩ := u64.write_of_read hr
      simp only [hr] at h
      split_ifs at h with hlen
      simp only [Except.ok.injEq, Prod.mk.injEq] at h
      obtain ⟨rfl, rfl⟩ := h
      have hl : (rest₁.take n).length = n := by
        rw [List.length_take, Nat.min_eq_left (Nat.not_lt.mp hlen)]
      refine ⟨by rw [hl]; exact hn, ?_⟩
      rw [hl, List.append_assoc, List.take_append_drop]

/-- The UTF-8 bytes of a string. -/
def utf8 (s : String) : List UInt8 := s.toUTF8.data.toList

/-- The string with these UTF-8 bytes. -/
def ofUtf8 (bs : List UInt8) : Except ReadError String :=
  match String.fromUTF8? ⟨bs.toArray⟩ with
  | some s => .ok s
  | none => .error (.invalidUtf8 bs)

theorem ofUtf8_utf8 (s : String) : ofUtf8 (utf8 s) = .ok s := by
  have hs : String.fromUTF8? s.toUTF8 = some s := by
    rw [String.fromUTF8?, dif_pos (by simpa using s.isValidUTF8)]
    rfl
  simp only [ofUtf8, utf8, Array.toArray_toList, hs]

theorem utf8_of_ofUtf8 {bs : List UInt8} {s : String} (h : ofUtf8 bs = .ok s) : utf8 s = bs := by
  rw [ofUtf8] at h
  split at h
  · next s' hs =>
    obtain rfl := Except.ok.inj h
    rw [String.fromUTF8?] at hs
    split_ifs at hs with hv
    obtain rfl := Option.some.inj hs
    rfl
  · cases h

/-- A string: its byte length in eight bytes, then its UTF-8 bytes. -/
def text : Format String :=
  blob.convert ofUtf8 utf8 ofUtf8_utf8 fun _ _ _ h => utf8_of_ofUtf8 h

theorem length_text_write (s : String) : (text.write s).length = 8 + (utf8 s).length := by
  show (u64.write (utf8 s).length ++ utf8 s).length = _
  rw [List.length_append, length_u64_write]

/-! ## Formats of bounded output -/

/-- Every value written in fewer than `2 ^ 64` bytes is one the format carries, and no value is
written in no bytes. -/
structure Format.Compact (f : Format α) : Prop where
  pos : ∀ a, 0 < (f.write a).length
  fits : ∀ a, (f.write a).length < 2 ^ 64 → f.Fits a

theorem u8_compact : u8.Compact := ⟨fun b => by simp, fun b _ => u8_fits b⟩

theorem u32_compact : u32.Compact := ⟨fun n => by simp, fun n _ => u32_fits n⟩

theorem text_compact : text.Compact where
  pos s := by rw [length_text_write]; omega
  fits s h := by
    rw [length_text_write] at h
    show (utf8 s).length < 2 ^ 64
    omega

namespace Format.Compact

theorem pair {f : Format α} {g : Format β} (hf : f.Compact) (hg : g.Compact) :
    (f.pair g).Compact where
  pos p := by
    have := hf.pos p.1
    simp only [Format.pair, List.length_append]
    omega
  fits p h := by
    simp only [Format.pair, List.length_append] at h
    exact ⟨hf.fits _ (by omega), hg.fits _ (by omega)⟩

theorem convert {f : Format α} (hf : f.Compact) {parse : α → Except ReadError β}
    {print : β → α} {hparse hprint} : (f.convert parse print hparse hprint).Compact where
  pos b := hf.pos (print b)
  fits b := hf.fits (print b)

theorem length_le_flatMap {f : Format α} (hf : f.Compact) (as : List α) :
    as.length ≤ (as.flatMap f.write).length ∧
      ∀ a ∈ as, (f.write a).length ≤ (as.flatMap f.write).length := by
  induction as with
  | nil => simp
  | cons a as ih =>
    have hpos := hf.pos a
    rw [List.flatMap_cons, List.length_append, List.length_cons, List.forall_mem_cons]
    refine ⟨by omega, by omega, ?_⟩
    intro b hb
    have := ih.2 b hb
    omega

theorem list {f : Format α} (hf : f.Compact) : f.list.Compact where
  pos as := by
    simp only [Format.list, List.length_append, length_u64_write]
    omega
  fits as h := by
    simp only [Format.list, List.length_append, length_u64_write] at h
    obtain ⟨hcount, helem⟩ := hf.length_le_flatMap as
    refine ⟨by omega, fun a ha => hf.fits a ?_⟩
    have := helem a ha
    omega

end Format.Compact

end ByteFormat
