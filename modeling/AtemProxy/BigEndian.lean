import Mathlib.Data.UInt
import Mathlib.Data.List.Basic

/-!
# Big-endian sixteen-bit words

Wire fields of two bytes, most significant byte first. The value map and
the two byte projections are mutually inverse on the machine types, so
no range hypothesis is carried by their users.
-/

namespace AtemProxy.BigEndian

/-- Literal wire data; slices of it are lists as well. -/
abbrev Bytes := List UInt8

/-- The word whose most significant byte comes first. -/
def beWord (high low : UInt8) : UInt16 := UInt16.ofNat (256*high.toNat+low.toNat)

/-- Most significant byte, written first on the wire. -/
def highByte (word : UInt16) : UInt8 := UInt8.ofNat (word.toNat/256)

/-- Least significant byte, written second on the wire. -/
def lowByte (word : UInt16) : UInt8 := UInt8.ofNat (word.toNat%256)

/-- Two bytes never leave the sixteen-bit range. -/
theorem beWord_toNat (high low : UInt8) : (beWord high low).toNat=256*high.toNat+low.toNat := by
  have hh := high.toNat_lt
  have hl := low.toNat_lt
  unfold beWord
  rw [UInt16.toNat_ofNat']
  omega

/-- Splitting a word into wire bytes and joining them again loses nothing. -/
theorem beWord_split (word : UInt16) : beWord (highByte word) (lowByte word)=word := by
  have hw := word.toNat_lt
  apply UInt16.toNat_inj.mp
  rw [beWord_toNat]
  unfold highByte lowByte
  rw [UInt8.toNat_ofNat',UInt8.toNat_ofNat']
  omega

/-- The first wire byte of a joined word is the original one. -/
theorem highByte_beWord (high low : UInt8) : highByte (beWord high low)=high := by
  have hh := high.toNat_lt
  have hl := low.toNat_lt
  apply UInt8.toNat_inj.mp
  unfold highByte
  rw [beWord_toNat,UInt8.toNat_ofNat']
  omega

/-- The second wire byte of a joined word is the original one. -/
theorem lowByte_beWord (high low : UInt8) : lowByte (beWord high low)=low := by
  have hh := high.toNat_lt
  have hl := low.toNat_lt
  apply UInt8.toNat_inj.mp
  unfold lowByte
  rw [beWord_toNat,UInt8.toNat_ofNat']
  omega

end AtemProxy.BigEndian
