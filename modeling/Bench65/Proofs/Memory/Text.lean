import Bench65.Proofs.Memory

/-!
# Reading and writing around the end of memory

`Memory.ShowsText m a most text` says what C means by the text at an address of which `most` bytes
count: the bytes up to the first zero, cut after `most`. There is no more than one
(`ShowsText.unique`), and one if there is a bound (`showsText_takeWhile`). A search for the end of a
text finds it exactly if it comes within the limit of the search (`text?_eq_some_iff`).

`access_wraps` puts together what memory promises to those who read and write it by address: runs of
bytes and texts go on at the first address behind the last, and only a program must not.
-/

namespace Bench65

/-! ### Texts -/

namespace Memory

/-- The text at an address: the bytes up to the first zero, or up to a number of bytes if one is
given and no zero comes before. -/
structure ShowsText (m : Memory) (a : UInt16) (most : Option Nat) (text : List UInt8) : Prop where
  holds : m.Holds a text
  zero_not_mem : 0 ∉ text
  length_le : ∀ n, most = some n → text.length ≤ n
  ends : most = some text.length ∨ m.read (a + UInt16.ofNat text.length) = 0

variable {m : Memory} {a : UInt16} {text : List UInt8}

/-- What comes first in memory, if not a zero, comes first in the text. -/
theorem ShowsText.cons {n : Nat} (hread : m.read a ≠ 0) (h : m.ShowsText (a + 1) (some n) text) :
    m.ShowsText a (some (n + 1)) (m.read a :: text) where
  holds := ⟨rfl, h.holds⟩
  zero_not_mem := by
    rw [List.mem_cons, not_or]
    exact ⟨hread.symm, h.zero_not_mem⟩
  length_le k hk := by
    obtain rfl := Option.some.inj hk
    exact Nat.succ_le_succ (h.length_le n rfl)
  ends := by
    rw [List.length_cons, add_ofNat_succ]
    refine h.ends.imp_left fun hlength => ?_
    rw [Option.some.inj hlength]

/-- There is always a text if its length is bounded. -/
theorem showsText_takeWhile (m : Memory) (a : UInt16) (n : Nat) :
    m.ShowsText a (some n) ((m.readBytes a n).takeWhile (· ≠ 0)) := by
  induction n generalizing a with
  | zero => exact ⟨trivial, List.not_mem_nil, fun _ _ => Nat.zero_le _, .inl rfl⟩
  | succ n ih =>
    rw [readBytes_succ]
    by_cases hread : m.read a = 0
    · rw [List.takeWhile_cons_of_neg (by simp [hread])]
      refine ⟨trivial, List.not_mem_nil, fun _ _ => Nat.zero_le _, .inr ?_⟩
      show m.read (a + 0) = 0
      rw [UInt16.add_zero, hread]
    · rw [List.takeWhile_cons_of_pos (by simp [hread])]
      exact .cons hread (ih (a + 1))

theorem ShowsText.read_ne_zero {most : Option Nat} (h : m.ShowsText a most text) {i : Nat}
    (hi : i < text.length) : m.read (a + UInt16.ofNat i) ≠ 0 := by
  intro hread
  have hmem : 0 ∈ m.readBytes a text.length := mem_readBytes.mpr ⟨i, hi, hread⟩
  rw [holds_iff_readBytes.mp h.holds] at hmem
  exact h.zero_not_mem hmem

/-- Of two texts at one address none is longer. -/
theorem ShowsText.length_le_length {most : Option Nat} {text' : List UInt8}
    (h : m.ShowsText a most text) (h' : m.ShowsText a most text') :
    text'.length ≤ text.length := by
  refine Nat.le_of_not_lt fun hlt => ?_
  -- the shorter one ends at the bound, or at a zero where the longer one has another byte
  rcases h.ends with hmost | hread
  · exact Nat.not_le_of_lt hlt (h'.length_le _ hmost)
  · exact h'.read_ne_zero hlt hread

theorem ShowsText.unique {most : Option Nat} {text' : List UInt8} (h : m.ShowsText a most text)
    (h' : m.ShowsText a most text') : text = text' := by
  have hlength := Nat.le_antisymm (h'.length_le_length h) (h.length_le_length h')
  rw [← holds_iff_readBytes.mp h.holds, ← holds_iff_readBytes.mp h'.holds, hlength]

theorem zeroTerminatedFrom_eq (m : Memory) (a : UInt16) (found : List UInt8) (limit : Nat) :
    m.zeroTerminatedFrom a found limit =
      if 0 ∈ m.readBytes a limit then
        some (found.reverse ++ (m.readBytes a limit).takeWhile (· ≠ 0))
      else none := by
  induction limit generalizing a found with
  | zero => rfl
  | succ limit ih =>
    rw [zeroTerminatedFrom, readBytes_succ]
    by_cases hread : m.read a = 0
    · simp [hread]
    · simp [hread, ih, Ne.symm hread]

/-- A text is found exactly if it ends within the limit. -/
theorem text?_eq_some_iff {limit : Nat} :
    m.text? a limit = some text ↔ m.ShowsText a none text ∧ text.length < limit := by
  constructor
  · intro h
    rw [text?, zeroTerminatedFrom_eq] at h
    by_cases hzero : 0 ∈ m.readBytes a limit
    · rw [if_pos hzero] at h
      obtain rfl := Option.some.inj h
      have hshows := m.showsText_takeWhile a limit
      obtain ⟨i, hi, hread⟩ := mem_readBytes.mp hzero
      have hlt : ((m.readBytes a limit).takeWhile (· ≠ 0)).length < limit := by
        refine Nat.lt_of_not_le fun hle => ?_
        exact hshows.read_ne_zero (Nat.lt_of_lt_of_le hi hle) hread
      -- the text ends before the limit, so it ends with a zero
      refine ⟨⟨hshows.holds, hshows.zero_not_mem, fun n hn => ?_, .inr ?_⟩, hlt⟩
      · cases hn
      exact hshows.ends.resolve_left fun hlength => Nat.ne_of_lt hlt (Option.some.inj hlength).symm
    · rw [if_neg hzero] at h
      cases h
  · rintro ⟨hshows, hlt⟩
    have hread := hshows.ends.resolve_left (Option.some_ne_none _).symm
    exact Holds.text? (holds_append.mpr ⟨hshows.holds, hread, trivial⟩) hshows.zero_not_mem hlt

theorem text?_eq_none_iff {limit : Nat} :
    m.text? a limit = none ↔ ∀ i < limit, m.read (a + UInt16.ofNat i) ≠ 0 := by
  rw [text?, zeroTerminatedFrom_eq, ite_eq_right_iff]
  simp [mem_readBytes]

/-- A text bounded by a limit below the bound asked for is the text asked for exactly if it ends by
itself, at the limit at the latest. -/
theorem ShowsText.showsText_iff {most limit : Nat}
    (h : m.ShowsText a (some (min most limit)) text) :
    m.ShowsText a (some most) text ↔
      most ≤ limit ∨ ∃ i ≤ limit, m.read (a + UInt16.ofNat i) = 0 := by
  have hle := h.length_le _ rfl
  constructor
  · intro hshows
    rcases hshows.ends with hmost | hread
    · exact .inl (by have := Option.some.inj hmost; omega)
    · exact .inr ⟨text.length, by omega, hread⟩
  · intro hends
    refine ⟨h.holds, h.zero_not_mem, fun n hn => ?_, ?_⟩
    · obtain rfl := Option.some.inj hn
      omega
    · rcases h.ends with hmin | hread
      · have hlength := Option.some.inj hmin
        rcases Nat.le_total most limit with hmost | hmost
        · exact .inl (by rw [← hlength, Nat.min_eq_left hmost])
        · -- the text fills the limit, so the zero can only be right behind it
          have hlimit : text.length = limit := by rw [← hlength, Nat.min_eq_right hmost]
          rcases hends with hmost' | ⟨i, hi, hread⟩
          · exact .inl (by rw [hlimit, Nat.le_antisymm hmost' hmost])
          · have hi' : text.length ≤ i := Nat.le_of_not_lt fun hlt => h.read_ne_zero hlt hread
            obtain rfl : i = text.length := by omega
            exact .inr hread
      · exact .inr hread

/-! ### Access by address -/

theorem length_readBytes (m : Memory) (a : UInt16) (n : Nat) : (m.readBytes a n).length = n := by
  simp [readBytes]

/-- The text found is what stands before the first zero. -/
theorem text?_eq_some_iff_readBytes {limit : Nat} :
    m.text? a limit = some text ↔
      ∃ i < limit, m.read (a + UInt16.ofNat i) = 0 ∧
        (∀ j < i, m.read (a + UInt16.ofNat j) ≠ 0) ∧ text = m.readBytes a i := by
  rw [text?_eq_some_iff]
  constructor
  · rintro ⟨h, hlt⟩
    have hzero := h.ends.resolve_left (Option.some_ne_none _).symm
    exact ⟨text.length, hlt, hzero, fun _ => h.read_ne_zero, (holds_iff_readBytes.mp h.holds).symm⟩
  · rintro ⟨i, hlt, hzero, hfirst, rfl⟩
    have hlength := m.length_readBytes a i
    refine ⟨⟨?_, ?_, fun n hn => (by cases hn), .inr ?_⟩, hlength.symm ▸ hlt⟩
    · rw [holds_iff_readBytes, hlength]
    · rw [mem_readBytes]
      rintro ⟨j, hj, hread⟩
      exact hfirst j hj hread
    · rw [hlength, hzero]

/-- The first zero comes before the search is back where it began. -/
theorem text?_of_le (m : Memory) (a : UInt16) {limit : Nat} (h : 0x10000 ≤ limit) :
    m.text? a limit = m.text? a 0x10000 := by
  refine Option.ext fun text => ?_
  rw [text?_eq_some_iff_readBytes, text?_eq_some_iff_readBytes]
  constructor
  · rintro ⟨i, -, hzero, hfirst, htext⟩
    refine ⟨i, Nat.lt_of_not_le fun hle => ?_, hzero, hfirst, htext⟩
    -- the same cell was passed one turn earlier
    have hturn : UInt16.ofNat (i - 0x10000) = UInt16.ofNat i := by
      apply UInt16.toNat_inj.mp
      rw [UInt16.toNat_ofNat', UInt16.toNat_ofNat']
      omega
    exact hfirst (i - 0x10000) (by omega) (by rw [hturn, hzero])
  · rintro ⟨i, hlt, hrest⟩
    exact ⟨i, by omega, hrest⟩

theorem readBytes_writeBytes (m : Memory) (a : UInt16) {bytes : List UInt8}
    (h : bytes.length ≤ 0x10000) : (m.writeBytes a bytes).readBytes a bytes.length = bytes :=
  holds_iff_readBytes.mp (m.holds_writeBytes a h)

/-- A program that fits lies where it should, without a wrap. -/
theorem read_writeBytes_of_fits (m : Memory) {a : UInt16} (c : UInt16) {bytes : List UInt8}
    (h : a.toNat + bytes.length ≤ 0x10000) :
    (m.writeBytes a bytes).read c =
      if a.toNat ≤ c.toNat then bytes[c.toNat - a.toNat]?.getD (m.read c) else m.read c := by
  rw [read_writeBytes m a c (by omega)]
  split
  case isTrue hle => rw [toNat_sub_of_le hle]
  case isFalse hlt =>
    have hdistance := toNat_sub_of_lt (Nat.lt_of_not_le hlt)
    rw [List.getElem?_eq_none (by omega)]
    rfl

/-- **Memory goes on at its first address behind its last.** Bytes written, up to as many as there
are addresses, read back, and nothing changes but the addresses counted from the first. A program is
loaded by writing it if it ends within memory; otherwise it is refused, and the memory is the one
there was. A text is found if and only if a zero comes within the limit, and it is what stands
before the first one; a limit beyond the number of addresses changes nothing. -/
theorem access_wraps (m : Memory) (a : UInt16) :
    (∀ bytes : List UInt8, bytes.length ≤ 0x10000 →
      (m.writeBytes a bytes).readBytes a bytes.length = bytes ∧
      ∀ c, (∀ i < bytes.length, c ≠ a + UInt16.ofNat i) →
        (m.writeBytes a bytes).read c = m.read c) ∧
    (∀ bytes : List UInt8,
      (a.toNat + bytes.length ≤ 0x10000 →
        (load a bytes).run m = .ok () (m.writeBytes a bytes) ∧
        ∀ c, (m.writeBytes a bytes).read c =
          if a.toNat ≤ c.toNat then bytes[c.toNat - a.toNat]?.getD (m.read c) else m.read c) ∧
      (0x10000 < a.toNat + bytes.length →
        (load a bytes).run m = .error (.imageOutOfBounds a bytes.length 0 0x10000) m)) ∧
    ∀ limit,
      (∀ text, m.text? a limit = some text ↔
        ∃ i < limit, m.read (a + UInt16.ofNat i) = 0 ∧
          (∀ j < i, m.read (a + UInt16.ofNat j) ≠ 0) ∧ text = m.readBytes a i) ∧
      (m.text? a limit = none ↔ ∀ i < limit, m.read (a + UInt16.ofNat i) ≠ 0) ∧
      (0x10000 ≤ limit → m.text? a limit = m.text? a 0x10000) := by
  refine ⟨fun bytes hlength => ⟨m.readBytes_writeBytes a hlength, fun c houtside => ?_⟩,
    fun bytes => ⟨fun hfits => ?_, fun hlong => ?_⟩, fun limit => ⟨fun text => ?_, ?_, ?_⟩⟩
  · refine m.read_writeBytes_of_le (Nat.le_of_not_lt fun hlt => ?_)
    exact houtside _ hlt (add_ofNat_toNat_sub a c).symm
  · exact ⟨m.run_load_of_fits hfits, fun c => m.read_writeBytes_of_fits c hfits⟩
  · exact m.run_load_of_lt hlong
  · exact text?_eq_some_iff_readBytes
  · exact text?_eq_none_iff
  · exact m.text?_of_le a

/-- Three bytes written around the end of memory, which are too many for a program, and the text
they are. A memory without a zero has no text, however far one searches. -/
theorem access_wraps_lastAddress :
    let m := Memory.filled 0xFF
    (m.writeBytes 0xFFFE [65, 66, 0]).readBytes 0xFFFE 3 = [65, 66, 0] ∧
      (m.writeBytes 0xFFFE [65, 66, 0]).read 1 = 0xFF ∧
      (load 0xFFFE [65, 66]).run m = .ok () (m.writeBytes 0xFFFE [65, 66]) ∧
      (load 0xFFFE [65, 66, 0]).run m = .error (.imageOutOfBounds 0xFFFE 3 0 0x10000) m ∧
      (m.writeBytes 0xFFFE [65, 66, 0]).text? 0xFFFE 3 = some [65, 66] ∧
      m.text? 0xFFFE 70000 = m.text? 0xFFFE 0x10000 := by
  intro m
  obtain ⟨hwrite, hload, htext⟩ := m.access_wraps 0xFFFE
  obtain ⟨hread, hframe⟩ := hwrite [65, 66, 0] (by decide)
  obtain ⟨-, -, hfar⟩ := htext 70000
  obtain ⟨hfound, -, -⟩ := ((m.writeBytes 0xFFFE [65, 66, 0]).access_wraps 0xFFFE).2.2 3
  refine ⟨hread, ?_, ((hload [65, 66]).1 (by decide)).1, (hload [65, 66, 0]).2 (by decide), ?_,
    hfar (by decide)⟩
  · exact (hframe 1 (by decide)).trans (Memory.read_filled _ _)
  · exact (hfound [65, 66]).mpr
      ⟨2, by decide, by decide +kernel, by decide +kernel, by decide +kernel⟩

end Memory

end Bench65
