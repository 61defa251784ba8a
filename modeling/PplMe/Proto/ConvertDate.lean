import PplMe.Foundation.Conversions
import PplMe.Proto.Messages

/-! Dates as words: a year, a month and a day in the octets of one 32-bit number.
A host packs its dates into words that denote them, one word for each date, and it reads back
what a host of its own byte order has written.
-/

namespace PplMe.Proto

open Conversions Octets
open PplMe.Core (IsCalendarDate)

/-- A date variable of the library; `none` is the not-a-date-time it holds at first. -/
abbrev DateVariable := Option Core.Date

/-- `Convert(Date const&, date*)`: whether it succeeds, and its target afterwards. Where the
library refuses the parts it throws before the assignment.
-/
def Date.convert (host : ByteOrder) (message : Date) (target : DateVariable)
    : Bool × DateVariable :=
  match message.ymd with
  | none => (false, target)
  | some ymd =>
      let ymd := host.ntohl ymd
      let year := ymd >>> 16
      let month := (ymd &&& 0xFF00) >>> 8
      let day := ymd &&& 0xFF
      match Core.Date.ofParts? year.toNat month.toNat day.toNat with
      | some date => (true, some date)
      | none => (false, target)

-----------------------------------------------------------------------------------------
-- The fields of a word
-----------------------------------------------------------------------------------------

/-- Each part of a date fits its field. -/
theorem date_lt (date : Core.Date)
    : date.year < 2 ^ 16 ∧ date.month < 2 ^ 8 ∧ date.day < 2 ^ 8 := by
  obtain ⟨⟨_, year⟩, ⟨_, month⟩, _, day⟩ := date.calendar
  have := (Core.endOfMonthDay_bounds date.year date.month).2
  omega

theorem year_toNat (word : UInt32) : (word >>> 16).toNat = word.toNat / 2 ^ 16 := by
  rw [UInt32.toNat_shiftRight, Nat.shiftRight_eq_div_pow]
  rfl

theorem month_toNat (word : UInt32)
    : ((word &&& 0xFF00) >>> 8).toNat = word.toNat / 2 ^ 8 % 2 ^ 8 := by
  rw [UInt32.toNat_shiftRight, UInt32.toNat_and, Nat.shiftRight_and_distrib]
  exact (Nat.and_two_pow_sub_one_eq_mod _ 8).trans
    (congrArg (· % 2 ^ 8) (Nat.shiftRight_eq_div_pow _ 8))

theorem day_toNat (word : UInt32) : (word &&& 0xFF).toNat = word.toNat % 2 ^ 8 := by
  rw [UInt32.toNat_and]
  exact Nat.and_two_pow_sub_one_eq_mod _ 8

/-- The parts of a date stand side by side. -/
theorem packYmd_toNat (date : Core.Date)
    : (packYmd date).toNat = date.year * 2 ^ 16 + date.month * 2 ^ 8 + date.day := by
  obtain ⟨year, month, day⟩ := date_lt date
  have shifts : (16 : UInt32).toNat % 32 = 16 ∧ (8 : UInt32).toNat % 32 = 8 := ⟨rfl, rfl⟩
  simp only [packYmd, UInt32.toNat_add, UInt32.toNat_shiftLeft, UInt32.toNat_ofNat',
    Nat.shiftLeft_eq, shifts]
  omega

/-- A word is a date's exactly when its fields are the date's parts. -/
theorem eq_packYmd_iff {word : UInt32} {date : Core.Date}
    : word = packYmd date
      ↔ date.year = word.toNat / 2 ^ 16
        ∧ date.month = word.toNat / 2 ^ 8 % 2 ^ 8
        ∧ date.day = word.toNat % 2 ^ 8 := by
  obtain ⟨year, month, day⟩ := date_lt date
  rw [← UInt32.toNat_inj, packYmd_toNat]
  omega

/-- No bit of a word belongs to two of a date's parts, so that adding them up carries nothing. -/
theorem packYmd_disjoint (date : Core.Date)
    : UInt32.ofNat date.year <<< 16 &&& UInt32.ofNat date.month <<< 8 = 0
      ∧ UInt32.ofNat date.year <<< 16 &&& UInt32.ofNat date.day = 0
      ∧ UInt32.ofNat date.month <<< 8 &&& UInt32.ofNat date.day = 0
      ∧ packYmd date
        = UInt32.ofNat date.year <<< 16
          ||| UInt32.ofNat date.month <<< 8
          ||| UInt32.ofNat date.day := by
  obtain ⟨year, month, day⟩ := date_lt date
  have yearField : (UInt32.ofNat date.year <<< 16).toNat = date.year <<< 16 := by
    have shift : (16 : UInt32).toNat % 32 = 16 := rfl
    rw [UInt32.toNat_shiftLeft, UInt32.toNat_ofNat', shift, Nat.shiftLeft_eq, Nat.shiftLeft_eq]
    omega
  have monthField : (UInt32.ofNat date.month <<< 8).toNat = date.month <<< 8 := by
    have shift : (8 : UInt32).toNat % 32 = 8 := rfl
    rw [UInt32.toNat_shiftLeft, UInt32.toNat_ofNat', shift, Nat.shiftLeft_eq, Nat.shiftLeft_eq]
    omega
  have dayField : (UInt32.ofNat date.day).toNat = date.day := by
    rw [UInt32.toNat_ofNat']
    omega
  have below : date.month <<< 8 + date.day < 2 ^ 16 := by
    rw [Nat.shiftLeft_eq]
    omega
  simp only [← UInt32.toNat_inj, UInt32.toNat_and, UInt32.toNat_or, yearField, monthField,
    dayField, packYmd_toNat]
  refine ⟨shiftLeft_and_eq_zero ?_, shiftLeft_and_eq_zero ?_, shiftLeft_and_eq_zero day, ?_⟩
  · exact (Nat.le_add_right _ _).trans_lt below
  · exact (Nat.le_add_left _ _).trans_lt below
  · rw [Nat.or_assoc, ← Nat.shiftLeft_add_eq_or_of_lt day,
      ← Nat.shiftLeft_add_eq_or_of_lt below, Nat.shiftLeft_eq, Nat.shiftLeft_eq, Nat.add_assoc]

section Host

variable {host : ByteOrder} {word : UInt32} {date : Core.Date} {target : DateVariable}

theorem ofParts?_eq_some_iff {year month day : Nat}
    : Core.Date.ofParts? year month day = some date
      ↔ date.year = year ∧ date.month = month ∧ date.day = day := by
  obtain ⟨ownYear, ownMonth, ownDay, calendar⟩ := date
  unfold Core.Date.ofParts?
  split
  · rw [Option.some.injEq, Core.Date.mk.injEq]
    exact and_congr eq_comm (and_congr eq_comm eq_comm)
  · rename_i refused
    constructor
    · intro found
      cases found
    · rintro ⟨rfl, rfl, rfl⟩
      exact absurd calendar refused

theorem ofParts?_eq_none_iff {year month day : Nat}
    : Core.Date.ofParts? year month day = none ↔ ¬ IsCalendarDate year month day := by
  unfold Core.Date.ofParts?
  split
  · simpa
  · simpa

/-- The fields of a word are the parts of a date. -/
def DenotesDate (word : UInt32) : Prop :=
  IsCalendarDate (word.toNat / 2 ^ 16) (word.toNat / 2 ^ 8 % 2 ^ 8) (word.toNat % 2 ^ 8)

theorem denotesDate_iff : DenotesDate word ↔ ∃ date, packYmd date = word := by
  constructor
  · intro calendar
    exact ⟨⟨_, _, _, calendar⟩, (eq_packYmd_iff.mpr ⟨rfl, rfl, rfl⟩).symm⟩
  · rintro ⟨date, packed⟩
    obtain ⟨year, month, day⟩ := eq_packYmd_iff.mp packed.symm
    rw [DenotesDate, ← year, ← month, ← day]
    exact date.calendar

/-- A message with a word that denotes a date on this host. -/
def Date.Convertible (host : ByteOrder) (message : Date) : Prop :=
  ∃ ymd, message.ymd = some ymd ∧ DenotesDate (host.ntohl ymd)

/-- On one host, the conversion from messages undoes the conversion to them. -/
theorem convertDate_inverts (host : ByteOrder)
    : Inverts (Date.convert host) (Date.ofDate host) (some : Core.Date → DateVariable)
        (Date.Convertible host) where
  reads date target := by
    obtain ⟨year, month, day⟩ := eq_packYmd_iff.mp (Eq.refl (packYmd date))
    have parts := ofParts?_eq_some_iff.mpr ⟨year, month, day⟩
    simp only [Date.convert, Date.ofDate, host.ntohl_htonl, year_toNat, month_toNat, day_toNat,
      parts]
  refuses message target refused := by
    obtain ⟨ymd⟩ := message
    cases ymd with
    | none => rfl
    | some ymd =>
        have parts := ofParts?_eq_none_iff.mpr (fun calendar => refused ⟨ymd, rfl, calendar⟩)
        simp only [Date.convert, year_toNat, month_toNat, day_toNat, parts]
  encoded message := by
    obtain ⟨ymd⟩ := message
    constructor
    · rintro ⟨_, rfl, denotes⟩
      obtain ⟨date, packed⟩ := denotesDate_iff.mp denotes
      refine ⟨date, ?_⟩
      rw [Date.ofDate, packed, host.htonl_ntohl]
    · rintro ⟨date, same⟩
      cases same
      refine ⟨_, rfl, denotesDate_iff.mpr ⟨date, ?_⟩⟩
      rw [host.ntohl_htonl]

/-- What is read from a word is the date that the word denotes. -/
theorem convert_eq_some_iff
    : (Date.mk (some word)).convert host target = (true, some date)
      ↔ host.ntohl word = packYmd date := by
  rw [(convertDate_inverts host).converts_iff (Option.some_injective _), Date.ofDate, Date.mk.injEq,
    Option.some.injEq]
  constructor
  · rintro rfl
    exact host.ntohl_htonl _
  · intro denotes
    rw [← denotes, host.htonl_ntohl]

/-- On one host, words that denote dates and dates correspond to each other one to one, and
other words change nothing.
-/
theorem convertDate_bijective (host : ByteOrder)
    : (∀ word target,
        ((Date.mk (some word)).convert host target).1 = true ↔ DenotesDate (host.ntohl word))
      ∧ (∀ word target,
          ((Date.mk (some word)).convert host target).1 = true
          → ∃ date, (Date.mk (some word)).convert host target = (true, some date)
            ∧ Date.ofDate host date = ⟨some word⟩)
      ∧ (∀ word other date target otherTarget,
          (Date.mk (some word)).convert host target = (true, some date)
          → (Date.mk (some other)).convert host otherTarget = (true, some date)
          → word = other)
      ∧ (∀ word target,
          ((Date.mk (some word)).convert host target).1 = false
          → ((Date.mk (some word)).convert host target).2 = target)
      ∧ (∀ date target, (Date.ofDate host date).convert host target = (true, some date))
      ∧ ∀ date : Core.Date,
          UInt32.ofNat date.year <<< 16 &&& UInt32.ofNat date.month <<< 8 = 0
          ∧ UInt32.ofNat date.year <<< 16 &&& UInt32.ofNat date.day = 0
          ∧ UInt32.ofNat date.month <<< 8 &&& UInt32.ofNat date.day = 0
          ∧ packYmd date
            = UInt32.ofNat date.year <<< 16
              ||| UInt32.ofNat date.month <<< 8
              ||| UInt32.ofNat date.day := by
  have inverts := convertDate_inverts host
  refine ⟨fun word target => ?_, fun word target => inverts.encode_of_succeeds, ?_,
    fun word target => inverts.target_of_fails, inverts.reads, packYmd_disjoint⟩
  · rw [inverts.succeeds_iff]
    simp only [Date.Convertible, Option.some.injEq, exists_eq_left']
  · intro word other date target otherTarget first second
    have same := (convert_eq_some_iff.mp first).trans (convert_eq_some_iff.mp second).symm
    rw [← host.htonl_ntohl word, same, host.htonl_ntohl]

end Host

-----------------------------------------------------------------------------------------
-- Two hosts of different byte orders
-----------------------------------------------------------------------------------------

/-- A date's word is the same backwards when the octets of its year are its day and month. -/
theorem packYmd_reversed_iff (date : Core.Date)
    : UInt32.ofNat (networkValue (networkOctets (packYmd date)).reverse) = packYmd date
      ↔ date.year = 2 ^ 8 * date.day + date.month := by
  obtain ⟨year, month, day⟩ := date_lt date
  obtain ⟨yearEq, monthEq, dayEq⟩ := eq_packYmd_iff.mp (Eq.refl (packYmd date))
  have centuryEq : (packYmd date).toNat / 2 ^ 24 % 2 ^ 8 = date.year / 2 ^ 8 := by omega
  have restEq : (packYmd date).toNat / 2 ^ 16 % 2 ^ 8 = date.year % 2 ^ 8 := by omega
  rw [← UInt32.toNat_inj, UInt32.toNat_ofNat', networkOctets]
  simp only [networkValue, List.reverse_cons, List.reverse_nil, List.nil_append,
    List.cons_append, List.foldl_cons, List.foldl_nil, UInt8.toNat_ofNat', centuryEq, restEq,
    ← monthEq, ← dayEq]
  rw [packYmd_toNat]
  clear yearEq monthEq dayEq centuryEq restEq
  have small : (((0 * 2 ^ 8 + date.day) * 2 ^ 8 + date.month) * 2 ^ 8 + date.year % 2 ^ 8)
      * 2 ^ 8 + date.year / 2 ^ 8 < 2 ^ 32 := by omega
  rw [Nat.mod_eq_of_lt small]
  constructor
  · intro same
    omega
  · intro palindrome
    omega

/-- What one host writes, a host of the other byte order reads as the same date only if the
word of the date is the same backwards.
-/
theorem convertDate_across_iff {encoder decoder : ByteOrder} (different : decoder ≠ encoder)
    (date : Core.Date) (target : DateVariable)
    : (Date.ofDate encoder date).convert decoder target = (true, some date)
      ↔ date.year = 2 ^ 8 * date.day + date.month := by
  rw [Date.ofDate, convert_eq_some_iff, ByteOrder.ntohl_htonl_of_ne different,
    packYmd_reversed_iff]

/-- The sixth of January 1537 is the same backwards. -/
theorem convertDate_across_epiphany
    : (Date.ofDate .littleEndian ⟨1537, 1, 6, by decide⟩).convert .bigEndian none
        = (true, some ⟨1537, 1, 6, by decide⟩)
      ↔ 1537 = 2 ^ 8 * 6 + 1 :=
  convertDate_across_iff (by decide) ⟨1537, 1, 6, by decide⟩ none

/-- The 27th of October 2014 is not: read on the other host it is no date at all. -/
theorem convertDate_fails_across
    : (Date.ofDate .littleEndian ⟨2014, 10, 27, by decide⟩).convert .bigEndian none
      = (false, none) := by
  decide +kernel

end PplMe.Proto
