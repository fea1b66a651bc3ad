import DContext.Format.Basic

/-!
# Truncated and extended bytes

A format that is read field by field runs off the end of bytes that stop early, wherever they stop,
and never looks past the end of a value.

## Main definitions

* `Format.Tight`: reading a proper prefix of a written value runs off its end

## Main results

* `Format.read_append`: bytes after a value are left alone
* `Tight.pair`, `Tight.list`, `text_tight`: formats built from the combinators are tight
-/

namespace ByteFormat

variable {α β : Type}

namespace Format

/-- What is read does not depend on the bytes that follow. -/
theorem read_append (f : Format α) {bs rest : List UInt8} {a : α} (h : f.read bs = .ok (a, rest))
    (more : List UInt8) : f.read (bs ++ more) = .ok (a, rest ++ more) := by
  obtain ⟨hfits, rfl⟩ := f.write_of_read h
  rw [List.append_assoc]
  exact f.read_write a (rest ++ more) hfits

/-- Reading the beginning of a written value, short of its end, runs off the end. -/
structure Tight (f : Format α) : Prop where
  eof : ∀ {a : α} {p q : List UInt8}, f.Fits a → f.write a = p ++ q → q ≠ [] →
    ∃ e : ReadError, e.IsEof ∧ f.read p = .error e

namespace Tight

theorem convert {f : Format α} (hf : f.Tight) {parse : α → Except ReadError β} {print : β → α}
    {hparse hprint} : (f.convert parse print hparse hprint).Tight where
  eof {b p q} hb hwrite hq := by
    obtain ⟨e, he, hread⟩ := hf.eof hb hwrite hq
    exact ⟨e, he, by simp only [Format.convert, hread]⟩

/-- Bytes that stop in the second part, or before it, of a sequence. -/
theorem read_split {f : Format α} (hf : f.Tight) {a : α} (ha : f.Fits a)
    {p q more : List UInt8} (h : f.write a ++ more = p ++ q) :
    (∃ e : ReadError, e.IsEof ∧ f.read p = .error e) ∨
      ∃ p', f.read p = .ok (a, p') ∧ more = p' ++ q := by
  rcases List.append_eq_append_iff.mp h with ⟨p', rfl, hmore⟩ | ⟨q', hwrite, rfl⟩
  · exact .inr ⟨p', f.read_write a p' ha, hmore⟩
  · rcases List.eq_nil_or_concat q' with rfl | ⟨q₀, b, rfl⟩
    · rw [List.append_nil] at hwrite
      exact .inr ⟨[], hwrite ▸ f.read_write_nil ha, rfl⟩
    · exact .inl (hf.eof ha hwrite (by simp))

theorem pair {f : Format α} {g : Format β} (hf : f.Tight) (hg : g.Tight) : (f.pair g).Tight where
  eof {a p q} ha hwrite hq := by
    rcases hf.read_split ha.1 hwrite with ⟨e, he, hread⟩ | ⟨p', hread, hmore⟩
    · exact ⟨e, he, by simp only [Format.pair, hread]⟩
    · obtain ⟨e, he, hrest⟩ := hg.eof ha.2 hmore hq
      exact ⟨e, he, by rw [Format.pair_read_ok hread, hrest]⟩

theorem readN {f : Format α} (hf : f.Tight) (as : List α) :
    ∀ {p q : List UInt8}, (∀ a ∈ as, f.Fits a) → as.flatMap f.write = p ++ q → q ≠ [] →
      ∃ e : ReadError, e.IsEof ∧ f.readN as.length p = .error e := by
  induction as with
  | nil =>
    intro p q _ hwrite hq
    exact absurd (List.append_eq_nil_iff.mp hwrite.symm).2 hq
  | cons a as ih =>
    intro p q ha hwrite hq
    obtain ⟨hhead, htail⟩ := List.forall_mem_cons.mp ha
    rw [List.length_cons, Format.readN]
    rcases hf.read_split hhead hwrite with ⟨e, he, hread⟩ | ⟨p', hread, hmore⟩
    · exact ⟨e, he, by simp only [hread]⟩
    · obtain ⟨e, he, hrest⟩ := ih htail hmore hq
      exact ⟨e, he, by simp only [hread, hrest]⟩

end Tight

end Format

open Format

theorem uint_tight (w : Nat) : (uint w).Tight where
  eof {n p q} _ hwrite hq := by
    have hlen := congrArg List.length hwrite
    rw [show (uint w).write n = leBytes w n from rfl, length_leBytes, List.length_append] at hlen
    have hpos := List.length_pos_iff.mpr hq
    exact ⟨.eofInNumber, .inl rfl, if_pos (by omega)⟩

theorem u8_tight : u8.Tight := (uint_tight 1).convert

theorem u32_tight : u32.Tight := (uint_tight 4).convert

theorem Format.Tight.list {f : Format α} (hf : f.Tight) : f.list.Tight where
  eof {as p q} has hwrite hq := by
    rcases (uint_tight 8).read_split has.1 hwrite with ⟨e, he, hread⟩ | ⟨p', hread, hmore⟩
    · exact ⟨e, he, by simp only [Format.list, u64, hread]⟩
    · simp only [Format.list, u64, hread]
      exact hf.readN as has.2 hmore hq

theorem blob_tight : blob.Tight where
  eof {bs p q} hbs hwrite hq := by
    rcases (uint_tight 8).read_split hbs hwrite with ⟨e, he, hread⟩ | ⟨p', hread, hmore⟩
    · exact ⟨e, he, by simp only [blob, u64, hread]⟩
    · have hlen := congrArg List.length hmore
      rw [List.length_append] at hlen
      have hpos := List.length_pos_iff.mpr hq
      simp only [blob, u64, hread]
      exact ⟨.eofInBytes, .inr rfl, if_pos (by omega)⟩

theorem text_tight : text.Tight := blob_tight.convert

end ByteFormat
