import Mathlib.Data.List.Basic
import Mathlib.Data.List.OfFn
import Mathlib.Algebra.Group.Int.Defs
import Mathlib.Algebra.Order.Group.Nat
import Mathlib.Algebra.Order.Monoid.NatCast

/-!
C objects as bytes in memory, little-endian and naturally aligned. A codec knows the size
and the alignment of a type; structures are built from left to right, each member after the
gap that its alignment asks for, and closed with the gap that an array of them needs. Gaps
hold whatever was there. Reading gives back what was written, from the first bytes of a
longer piece of memory too; a stream of records cut anywhere reads as the records that are
whole.
-/

/-- `encode junk a` has the byte `junk i` where offset `i` belongs to no member. A value that
does not fit is not read back. -/
structure Codec (α : Type) where
  size : Nat
  align : Nat
  Fits : α → Prop
  encode : (Nat → UInt8) → α → List UInt8
  decode : List UInt8 → α
  length_encode : ∀ junk a, (encode junk a).length = size
  decode_encode : ∀ junk a rest, Fits a → decode (encode junk a ++ rest) = a

namespace Codec

variable {α β : Type}

def leBytes : Nat → Nat → List UInt8
  | 0, _ => []
  | n + 1, v => UInt8.ofNat (v % 256) :: leBytes n (v / 256)

def ofLeBytes : Nat → List UInt8 → Nat
  | 0, _ => 0
  | _ + 1, [] => 0
  | n + 1, b :: bs => b.toNat + 256 * ofLeBytes n bs

theorem length_leBytes (n v : Nat) : (leBytes n v).length = n := by
  induction n generalizing v with
  | zero => rfl
  | succ n ih => rw [leBytes, List.length_cons, ih]

theorem ofLeBytes_leBytes {n v : Nat} (fits : v < 256 ^ n) (rest : List UInt8) :
    ofLeBytes n (leBytes n v ++ rest) = v := by
  induction n generalizing v with
  | zero =>
      rw [pow_zero] at fits
      rw [ofLeBytes]
      omega
  | succ n ih =>
      rw [pow_succ] at fits
      have byte : (UInt8.ofNat (v % 256)).toNat = v % 256 := by
        rw [UInt8.toNat_ofNat']
        omega
      rw [leBytes, List.cons_append, ofLeBytes, byte, ih (by omega)]
      omega

def word (n : Nat) (toNat : α → Nat) (ofNat : Nat → α)
    (back : ∀ a, ofNat (toNat a) = a) : Codec α where
  size := n
  align := n
  Fits a := toNat a < 256 ^ n
  encode _ a := leBytes n (toNat a)
  decode bytes := ofNat (ofLeBytes n bytes)
  length_encode _ a := length_leBytes n (toNat a)
  decode_encode _ a rest fits := by rw [ofLeBytes_leBytes fits, back]

/-- A codec for what another type represents. -/
def map (c : Codec α) (repr : β → α) (ofRepr : α → β) (Fits : β → Prop)
    (back : ∀ b, Fits b → c.Fits (repr b) ∧ ofRepr (repr b) = b) : Codec β where
  size := c.size
  align := c.align
  Fits := Fits
  encode junk b := c.encode junk (repr b)
  decode bytes := ofRepr (c.decode bytes)
  length_encode junk b := c.length_encode junk (repr b)
  decode_encode junk b rest fits := by
    rw [c.decode_encode junk _ rest (back b fits).1, (back b fits).2]

/-- A codec under another representation of the same values. -/
def iso (c : Codec α) (repr : β → α) (ofRepr : α → β) (back : ∀ b, ofRepr (repr b) = b) :
    Codec β :=
  c.map repr ofRepr (fun b => c.Fits (repr b)) fun b fits => ⟨fits, back b⟩

def u16 : Codec UInt16 :=
  word 2 UInt16.toNat UInt16.ofNat fun _ => UInt16.ofNat_toNat

def u32 : Codec UInt32 :=
  word 4 UInt32.toNat UInt32.ofNat fun _ => UInt32.ofNat_toNat

def u64 : Codec UInt64 :=
  word 8 UInt64.toNat UInt64.ofNat fun _ => UInt64.ofNat_toNat

def i32 : Codec Int32 :=
  u32.iso Int32.toUInt32 UInt32.toInt32 fun _ => rfl

def i64 : Codec Int64 :=
  u64.iso Int64.toUInt64 UInt64.toInt64 fun _ => rfl

@[simp] theorem u16_fits (a : UInt16) : u16.Fits a := a.toNat_lt

@[simp] theorem u32_fits (a : UInt32) : u32.Fits a := a.toNat_lt

@[simp] theorem u64_fits (a : UInt64) : u64.Fits a := a.toNat_lt

@[simp] theorem i32_fits (a : Int32) : i32.Fits a := u32_fits a.toUInt32

@[simp] theorem i64_fits (a : Int64) : i64.Fits a := u64_fits a.toUInt64

/-- The bytes from `size` to the next multiple of `align`. -/
def gap (size align : Nat) : Nat :=
  (align - size % align) % align

/-- The junk of the offsets `at', ..`. -/
def filler (junk : Nat → UInt8) (at' n : Nat) : List UInt8 :=
  (List.range n).map fun i => junk (at' + i)

@[simp] theorem length_filler (junk : Nat → UInt8) (at' n : Nat) :
    (filler junk at' n).length = n := by
  rw [filler, List.length_map, List.length_range]

/-- The next member of a structure. -/
def member (c : Codec α) (d : Codec β) : Codec (α × β) where
  size := c.size + gap c.size d.align + d.size
  align := max c.align d.align
  Fits p := c.Fits p.1 ∧ d.Fits p.2
  encode junk p :=
    c.encode junk p.1 ++ (filler junk c.size (gap c.size d.align) ++
      d.encode (fun i => junk (c.size + gap c.size d.align + i)) p.2)
  decode bytes := (c.decode bytes, d.decode (bytes.drop (c.size + gap c.size d.align)))
  length_encode junk p := by
    rw [List.length_append, List.length_append, c.length_encode, d.length_encode,
      length_filler, Nat.add_assoc]
  decode_encode junk p rest fits := by
    have skip (junk' : Nat → UInt8) (tail : List UInt8) :
        (c.encode junk p.1 ++ (filler junk c.size (gap c.size d.align) ++ tail)).drop
          (c.size + gap c.size d.align) = tail := by
      rw [← List.append_assoc]
      refine List.drop_left' ?_
      rw [List.length_append, c.length_encode, length_filler]
    rw [List.append_assoc, List.append_assoc, c.decode_encode _ _ _ fits.1, skip junk,
      d.decode_encode _ _ _ fits.2]

/-- The end of a structure. -/
def close (c : Codec α) : Codec α where
  size := c.size + gap c.size c.align
  align := c.align
  Fits := c.Fits
  encode junk a := c.encode junk a ++ filler junk c.size (gap c.size c.align)
  decode := c.decode
  length_encode junk a := by rw [List.length_append, c.length_encode, length_filler]
  decode_encode junk a rest fits := by rw [List.append_assoc, c.decode_encode _ _ _ fits]

/-- Elements one after the other. -/
def encodeAll (c : Codec α) (junk : Nat → UInt8) : List α → List UInt8
  | [] => []
  | a :: as => c.encode junk a ++ encodeAll c (fun i => junk (c.size + i)) as

theorem length_encodeAll (c : Codec α) (junk : Nat → UInt8) (as : List α) :
    (c.encodeAll junk as).length = as.length * c.size := by
  induction as generalizing junk with
  | nil => simp [encodeAll]
  | cons a as ih =>
      rw [encodeAll, List.length_append, ih, c.length_encode, List.length_cons, Nat.succ_mul,
        Nat.add_comm]

theorem decode_encodeAll (c : Codec α) (junk : Nat → UInt8) {as : List α}
    (fits : ∀ a ∈ as, c.Fits a) {i : Nat} {a : α} (here : as[i]? = some a) (rest : List UInt8) :
    c.decode ((c.encodeAll junk as ++ rest).drop (i * c.size)) = a := by
  induction as generalizing i junk with
  | nil => cases here
  | cons b as ih =>
      obtain ⟨first, later⟩ := List.forall_mem_cons.mp fits
      rw [encodeAll, List.append_assoc]
      cases i with
      | zero =>
          obtain rfl := Option.some.inj here
          rw [Nat.zero_mul, List.drop_zero, c.decode_encode _ _ _ first]
      | succ i =>
          have skip : (i + 1) * c.size = (c.encode junk b).length + i * c.size := by
            rw [c.length_encode, Nat.succ_mul, Nat.add_comm]
          rw [skip, List.drop_length_add_append]
          exact ih _ later here

/-- An array, or `n` members of one type. -/
def array (n : Nat) (c : Codec α) : Codec (Fin n → α) where
  size := n * c.size
  align := c.align
  Fits f := ∀ i, c.Fits (f i)
  encode junk f := c.encodeAll junk (List.ofFn f)
  decode bytes i := c.decode (bytes.drop (i.val * c.size))
  length_encode junk f := by rw [length_encodeAll, List.length_ofFn]
  decode_encode junk f rest fits := by
    funext i
    refine c.decode_encodeAll junk (fun a inside => ?_) ?_ rest
    · obtain ⟨j, rfl⟩ := List.mem_ofFn.mp inside
      exact fits j
    · rw [List.getElem?_ofFn, dif_pos i.isLt]

def int : Codec Int :=
  i32.map Int32.ofInt Int32.toInt (fun n => -2 ^ 31 ≤ n ∧ n < 2 ^ 31) fun _ fits =>
    ⟨i32_fits _, Int32.toInt_ofInt_of_le fits.1 fits.2⟩

def byteOf (c : Char) : UInt8 :=
  UInt8.ofNat c.toNat

theorem byteOf_eq {c : Char} (small : c.toNat < 256) : Char.ofNat (byteOf c).toNat = c := by
  rw [byteOf, UInt8.toNat_ofNat', Nat.mod_eq_of_lt small, Char.ofNat_toNat]

theorem byteOf_ne_zero {c : Char} (pos : 0 < c.toNat) (small : c.toNat < 256) :
    byteOf c ≠ 0 := by
  intro zero
  have same := congrArg UInt8.toNat zero
  rw [byteOf, UInt8.toNat_ofNat', Nat.mod_eq_of_lt small] at same
  exact pos.ne' same

/-- A string in an array of `n` characters. -/
def chars (n : Nat) : Codec String where
  size := n
  align := 1
  Fits s := s.length < n ∧ ∀ c ∈ s.toList, 0 < c.toNat ∧ c.toNat < 256
  encode junk s := (s.toList.map byteOf ++ 0 :: filler junk (s.length + 1) n).take n
  decode bytes :=
    String.ofList (((bytes.take n).takeWhile (· ≠ 0)).map fun b => Char.ofNat b.toNat)
  length_encode junk s := by
    rw [List.length_take, List.length_append, List.length_cons, length_filler]
    omega
  decode_encode junk s rest fits := by
    have room : s.toList.length < n := by
      rw [String.length_toList]
      exact fits.1
    have text : ∀ b ∈ s.toList.map byteOf, decide (b ≠ 0) = true := by
      intro b here
      obtain ⟨c, inside, rfl⟩ := List.mem_map.mp here
      exact decide_eq_true (byteOf_ne_zero (fits.2 c inside).1 (fits.2 c inside).2)
    have back : (s.toList.map byteOf).map (fun b => Char.ofNat b.toNat) = s.toList := by
      rw [List.map_map]
      conv_rhs => rw [← List.map_id s.toList]
      exact List.map_congr_left fun c inside => byteOf_eq (fits.2 c inside).2
    obtain ⟨more, enough⟩ : ∃ more, n = (s.toList.map byteOf).length + (more + 1) := by
      refine ⟨n - s.toList.length - 1, ?_⟩
      rw [List.length_map]
      omega
    have whole :
        ((s.toList.map byteOf ++ 0 :: filler junk (s.length + 1) n).take n).length = n := by
      rw [List.length_take, List.length_append, List.length_cons, length_filler]
      omega
    have cut : ((s.toList.map byteOf ++ 0 :: filler junk (s.length + 1) n).take n ++ rest).take n =
        s.toList.map byteOf ++ 0 :: (filler junk (s.length + 1) n).take more := by
      rw [List.take_left' whole, enough, List.take_length_add_append, List.take_succ_cons]
    rw [cut, List.takeWhile_append_of_pos text, List.takeWhile_cons_of_neg (by simp),
      List.append_nil, back, String.ofList_toList]

/-! Streams of records. -/

/-- `bytes` are the records of `values`, one after the other. -/
inductive Encodes (c : Codec α) : List UInt8 → List α → Prop
  | nil : Encodes c [] []
  | concat {bytes : List UInt8} {values : List α} (junk : Nat → UInt8) (a : α)
      (fits : c.Fits a) (before : Encodes c bytes values) :
      Encodes c (bytes ++ c.encode junk a) (values ++ [a])

/-- The records that are whole. -/
def readAll (c : Codec α) (bytes : List UInt8) : List α :=
  (List.range (bytes.length / c.size)).map fun i => c.decode (bytes.drop (i * c.size))

variable {c : Codec α} {bytes : List UInt8} {values : List α}

theorem Encodes.length_eq (stream : Encodes c bytes values) :
    bytes.length = values.length * c.size := by
  induction stream with
  | nil => simp
  | concat junk a _ _ ih =>
      rw [List.length_append, List.length_append, ih, c.length_encode, List.length_singleton,
        Nat.add_mul, Nat.one_mul]

/-- A record of the stream is where its number says, whatever follows. -/
theorem Encodes.decode_drop (stream : Encodes c bytes values) {i : Nat} {a : α}
    (here : values[i]? = some a) (rest : List UInt8) :
    c.decode ((bytes ++ rest).drop (i * c.size)) = a := by
  induction stream generalizing i rest with
  | nil => simp at here
  | @concat bytes values junk b fits before ih =>
      by_cases old : i < values.length
      · rw [List.getElem?_append_left old] at here
        rw [List.append_assoc]
        exact ih here _
      · have last : i = values.length := by
          have inside := (List.getElem?_eq_some_iff.mp here).1
          rw [List.length_append, List.length_singleton] at inside
          omega
        rw [last, List.getElem?_concat_length] at here
        obtain rfl := Option.some.inj here
        rw [last, ← before.length_eq, List.append_assoc, List.drop_left, c.decode_encode _ _ _ fits]

/-- The records of a stream are read whatever part of a record follows. -/
theorem Encodes.readAll_append (stream : Encodes c bytes values) {rest : List UInt8}
    (part : rest.length < c.size) : c.readAll (bytes ++ rest) = values := by
  have whole : (bytes ++ rest).length / c.size = values.length := by
    rw [List.length_append, stream.length_eq, Nat.mul_comm, Nat.mul_add_div (by omega),
      Nat.div_eq_of_lt part, Nat.add_zero]
  unfold readAll
  rw [whole]
  refine List.ext_getElem (by rw [List.length_map, List.length_range]) ?_
  intro i _ inside
  rw [List.getElem_map, List.getElem_range]
  exact stream.decode_drop (List.getElem?_eq_getElem inside) rest

/-- The first records of a stream are a stream. -/
theorem Encodes.take (stream : Encodes c bytes values) (k : Nat) :
    Encodes c (bytes.take (k * c.size)) (values.take k) := by
  induction stream with
  | nil =>
      rw [List.take_nil, List.take_nil]
      exact .nil
  | @concat bytes values junk a fits before ih =>
      by_cases all : values.length < k
      · have enough : (values ++ [a]).length * c.size ≤ k * c.size := by
          refine Nat.mul_le_mul_right _ ?_
          rw [List.length_append, List.length_singleton]
          exact all
        rw [List.take_of_length_le ((before.concat junk a fits).length_eq.le.trans enough),
          List.take_of_length_le (by rw [List.length_append]; exact all)]
        exact before.concat junk a fits
      · have fewer : k ≤ values.length := not_lt.mp all
        have shorter : k * c.size ≤ bytes.length := by
          rw [before.length_eq]
          exact Nat.mul_le_mul_right _ fewer
        rw [List.take_append_of_le_length fewer, List.take_append_of_le_length shorter]
        exact ih

/-- A stream that is cut anywhere reads as the records before the cut. -/
theorem Encodes.readAll_take (stream : Encodes c bytes values) (pos : 0 < c.size) (n : Nat) :
    c.readAll (bytes.take n) = values.take (n / c.size) := by
  by_cases beyond : bytes.length ≤ n
  · have most : values.length ≤ n / c.size := by
      rw [Nat.le_div_iff_mul_le pos, ← stream.length_eq]
      exact beyond
    rw [List.take_of_length_le beyond, List.take_of_length_le most]
    have none : ([] : List UInt8).length < c.size := pos
    have alone := stream.readAll_append none
    rwa [List.append_nil] at alone
  · have split : bytes.take n =
        bytes.take (n / c.size * c.size) ++
          (bytes.drop (n / c.size * c.size)).take (n % c.size) := by
      rw [← List.take_add, Nat.div_add_mod']
    rw [split]
    refine (stream.take _).readAll_append ?_
    rw [List.length_take]
    exact (Nat.min_le_left _ _).trans_lt (Nat.mod_lt _ pos)

end Codec
