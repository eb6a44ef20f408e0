import FormWeaver.Proofs.Classpath.Location
import FormWeaver.Proofs.Instrumenter.References
import FormWeaver.Proofs.Path.Characters

/-!
# Locations that no program can be told of

A text with a NUL in it is no location, since no program can be passed one. But this is seen to before the
escapes of a URL are read, and an escape may spell a NUL. `parse_nul_iff` tells which texts become locations
with a NUL in their path, and what comes of it: the class path holds that path, so the instrumenter is not
started for any form.
-/

namespace FormWeaver

/-! ## Bytes of texts -/

namespace Text

theorem zero_ne_ofNat {n : Nat} (hpos : 0 < n) (hlt : n < 256) : (0 : UInt8) ≠ UInt8.ofNat n := by
  intro h
  have hn := congrArg UInt8.toNat h
  rw [UInt8.toNat_ofNat_of_lt' hlt] at hn
  exact absurd hn (Nat.ne_of_lt hpos)

/-- Only the NUL has a zero among its bytes: those of a longer character all have their highest bit. -/
theorem zero_mem_utf8EncodeChar_iff {c : Char} : 0 ∈ String.utf8EncodeChar c ↔ c = '\x00' := by
  constructor
  · intro h
    dsimp only [String.utf8EncodeChar] at h
    split at h
    · next hascii =>
      have hsize : UInt8.size = 256 := rfl
      have hn := congrArg UInt8.toNat (List.mem_singleton.mp h)
      rw [UInt8.toNat_ofNat_of_lt' (by omega)] at hn
      exact Char.toNat_inj.mp hn.symm
    · exfalso
      split at h
      · simp only [List.mem_cons, List.not_mem_nil, or_false] at h
        rcases h with h | h <;> exact zero_ne_ofNat (by omega) (by omega) h
      split at h
      · simp only [List.mem_cons, List.not_mem_nil, or_false] at h
        rcases h with h | h | h <;> exact zero_ne_ofNat (by omega) (by omega) h
      · simp only [List.mem_cons, List.not_mem_nil, or_false] at h
        rcases h with h | h | h | h <;> exact zero_ne_ofNat (by omega) (by omega) h
  · rintro rfl
    decide

theorem flatMap_of_fromUTF8? {bytes : List UInt8} {text : String}
    (h : String.fromUTF8? bytes.toByteArray = some text) :
    text.toList.flatMap String.utf8EncodeChar = bytes := by
  unfold String.fromUTF8? at h
  split at h
  · next hvalid =>
    have hencode : text.toList.utf8Encode = bytes.toByteArray := by
      rw [String.utf8Encode_toList, ← Option.some.inj h]
      rfl
    have hdata := congrArg (fun b : ByteArray => b.data.toList) hencode
    simpa [List.utf8Encode] using hdata
  · cases h

/-- A text has a NUL in it when one of its bytes is zero. -/
theorem nul_mem_iff_of_fromUTF8? {bytes : List UInt8} {text : String}
    (h : String.fromUTF8? bytes.toByteArray = some text) : '\x00' ∈ text.toList ↔ 0 ∈ bytes := by
  rw [← flatMap_of_fromUTF8? h, List.mem_flatMap]
  simp only [zero_mem_utf8EncodeChar_iff, exists_eq_right]

theorem hexValue?_eq_zero_iff {c : Char} : hexValue? c = some 0 ↔ c = '0' := by
  constructor
  · intro h
    unfold hexValue? at h
    split at h
    · next hdigit =>
      have hlow : '0'.toNat ≤ c.toNat := hdigit.1
      have hzero : c.toNat - '0'.toNat = 0 := Option.some.inj h
      exact Char.toNat_inj.mp (by omega)
    split at h
    · cases h
    split at h <;> cases h
  · rintro rfl
    decide

theorem hexValue?_lt {c : Char} {n : Nat} (h : hexValue? c = some n) : n < 16 := by
  have hdigits : '0'.toNat = 48 ∧ '9'.toNat = 57 := ⟨rfl, rfl⟩
  have hlower : 'a'.toNat = 97 ∧ 'f'.toNat = 102 := ⟨rfl, rfl⟩
  have hupper : 'A'.toNat = 65 ∧ 'F'.toNat = 70 := ⟨rfl, rfl⟩
  unfold hexValue? at h
  split at h
  · next hdigit =>
    have hhigh : c.toNat ≤ '9'.toNat := hdigit.2
    have hn := Option.some.inj h
    omega
  split at h
  · next hdigit =>
    have hhigh : c.toNat ≤ 'f'.toNat := hdigit.2
    have hn := Option.some.inj h
    omega
  split at h
  · next hdigit =>
    have hhigh : c.toNat ≤ 'F'.toNat := hdigit.2
    have hn := Option.some.inj h
    omega
  · cases h

end Text

/-! ## Escapes -/

namespace Classpath

/-- Whether an escape spells a NUL: `%00` or `%+0` stands behind whole characters and escapes. -/
def SpellsNul (cs : List Char) : Prop :=
  ∃ before sign after, cs = before ++ '%' :: sign :: '0' :: after ∧ (sign = '0' ∨ sign = '+') ∧
    (decodeBytes before).isSome = true

/-- An escape spells a byte, and zero with the digit zero behind another or behind a plus sign. -/
theorem escapeValue?_spec {a b : Char} {n : Nat} (h : escapeValue? a b = some n) :
    n < 256 ∧ (n = 0 ↔ b = '0' ∧ (a = '0' ∨ a = '+')) := by
  unfold escapeValue? at h
  split at h
  · cases h
  · next low hlow =>
    have hlt := Text.hexValue?_lt hlow
    have hzero : low = 0 ↔ b = '0' := by
      rw [← Text.hexValue?_eq_zero_iff, hlow, Option.some_inj]
    split at h
    · next hplus =>
      obtain rfl := Option.some.inj h
      exact ⟨by omega, by rw [hzero]; simp [hplus]⟩
    · next hplus =>
      obtain ⟨high, hhigh, rfl⟩ := Option.map_eq_some_iff.mp h
      have hlt' := Text.hexValue?_lt hhigh
      have hzero' : high = 0 ↔ a = '0' := by
        rw [← Text.hexValue?_eq_zero_iff, hhigh, Option.some_inj]
      refine ⟨by omega, ?_⟩
      rw [← hzero, ← hzero', or_iff_left hplus]
      omega

/-- Whole characters and escapes are read as what they are, whatever stands behind them. -/
theorem decodeBytes_append {before : List Char} {bytes : List UInt8}
    (h : decodeBytes before = some bytes) (rest : List Char) :
    decodeBytes (before ++ rest) = (decodeBytes rest).map (bytes ++ ·) := by
  induction before using decodeBytes.induct generalizing bytes with
  | case1 =>
    obtain rfl : [] = bytes := Option.some.inj h
    simp
  | case2 a b before hvalue => simp [decodeBytes, hvalue] at h
  | case3 a b before n hvalue ih =>
    rw [decodeBytes_escape hvalue] at h
    obtain ⟨more, hmore, rfl⟩ := Option.map_eq_some_iff.mp h
    rw [List.cons_append, List.cons_append, List.cons_append, decodeBytes_escape hvalue, ih hmore]
    simp [Option.map_map, Function.comp_def]
  | case4 before hshort => simp [decodeBytes] at h
  | case5 c before hshort hc ih =>
    rw [decodeBytes_cons hc] at h
    obtain ⟨more, hmore, rfl⟩ := Option.map_eq_some_iff.mp h
    rw [List.cons_append, decodeBytes_cons hc, ih hmore]
    simp [Option.map_map, Function.comp_def]

/-- In a text without a NUL, a zero byte comes from an escape. -/
theorem spellsNul_of_zero_mem {cs : List Char} {bytes : List UInt8} (h : decodeBytes cs = some bytes)
    (hnul : '\x00' ∉ cs) (hzero : 0 ∈ bytes) : SpellsNul cs := by
  induction cs using decodeBytes.induct generalizing bytes with
  | case1 =>
    obtain rfl : [] = bytes := Option.some.inj h
    cases hzero
  | case2 a b rest hvalue => simp [decodeBytes, hvalue] at h
  | case3 a b rest n hvalue ih =>
    rw [decodeBytes_escape hvalue] at h
    obtain ⟨more, hmore, rfl⟩ := Option.map_eq_some_iff.mp h
    obtain ⟨hlt, hspells⟩ := escapeValue?_spec hvalue
    rcases List.mem_cons.mp hzero with hn | hmem
    · have hn : n = 0 := by
        by_contra hne
        exact Text.zero_ne_ofNat (Nat.pos_of_ne_zero hne) hlt hn
      obtain ⟨rfl, hsign⟩ := hspells.mp hn
      exact ⟨[], a, rest, rfl, hsign, rfl⟩
    · obtain ⟨before, sign, after, rfl, hsign, hbefore⟩ :=
        ih hmore (fun hmem => hnul (by simp [hmem])) hmem
      refine ⟨'%' :: a :: b :: before, sign, after, rfl, hsign, ?_⟩
      rw [decodeBytes_escape hvalue, Option.isSome_map, hbefore]
  | case4 rest hshort => simp [decodeBytes] at h
  | case5 c rest hshort hc ih =>
    rw [decodeBytes_cons hc] at h
    obtain ⟨more, hmore, rfl⟩ := Option.map_eq_some_iff.mp h
    rcases List.mem_append.mp hzero with hself | hmem
    · obtain rfl := Text.zero_mem_utf8EncodeChar_iff.mp hself
      exact absurd List.mem_cons_self hnul
    · obtain ⟨before, sign, after, rfl, hsign, hbefore⟩ :=
        ih hmore (fun hmem => hnul (List.mem_cons_of_mem _ hmem)) hmem
      refine ⟨c :: before, sign, after, rfl, hsign, ?_⟩
      rw [decodeBytes_cons hc, Option.isSome_map, hbefore]

theorem zero_mem_of_spellsNul {cs : List Char} {bytes : List UInt8} (h : decodeBytes cs = some bytes)
    (hspells : SpellsNul cs) : 0 ∈ bytes := by
  obtain ⟨before, sign, after, rfl, hsign, hbefore⟩ := hspells
  obtain ⟨bytes₀, hbytes₀⟩ := Option.isSome_iff_exists.mp hbefore
  have hvalue : escapeValue? sign '0' = some 0 := by rcases hsign with rfl | rfl <;> decide
  rw [decodeBytes_append hbytes₀, decodeBytes_escape hvalue] at h
  obtain ⟨more, hmore, rfl⟩ := Option.map_eq_some_iff.mp h
  obtain ⟨rest, -, rfl⟩ := Option.map_eq_some_iff.mp hmore
  exact List.mem_append_right _ List.mem_cons_self

/-- **An escaped text without a NUL stands for one with a NUL exactly when an escape spells it.** -/
theorem nul_mem_percentDecode_iff {cs : List Char} {text : String} (h : percentDecode cs = some text)
    (hnul : '\x00' ∉ cs) : '\x00' ∈ text.toList ↔ SpellsNul cs := by
  obtain ⟨bytes, hbytes, htext⟩ := Option.bind_eq_some_iff.mp h
  rw [Text.nul_mem_iff_of_fromUTF8? htext]
  exact ⟨spellsNul_of_zero_mem hbytes hnul, zero_mem_of_spellsNul hbytes⟩

theorem mem_of_mem_dropAuthority {cs : List Char} {c : Char} (h : c ∈ dropAuthority cs) :
    c ∈ cs ∨ c = '/' := by
  unfold dropAuthority at h
  split at h
  · next rest =>
    split at h
    · exact .inr (List.mem_singleton.mp h)
    · have hrest : c ∈ rest := (List.dropWhile_sublist _).subset h
      exact .inl (by simp [hrest])
  · exact .inl h

end Classpath

/-! ## Locations -/

/-- Whether no name of the working directory has a NUL in it, as no name of a directory can. -/
def Disk.IsNulFree (d : Disk) : Prop :=
  ∀ here, d.workingDirectory = .present here → ∀ name ∈ here, '\x00' ∉ name.toList

/-- The characters of an absolute form, besides slashes and dots, are those of the path and, if it was
relative, those of the working directory. -/
theorem Disk.mem_absolute_iff {d : Disk} {c : Char} (hslash : c ≠ '/') (hdot : c ≠ '.') {p q : Path}
    (h : d.absolute p = .ok q) : c ∈ q.text.toList ↔ c ∈ p.text.toList ∨ p.isAbsolute = false ∧
      ∃ here, d.workingDirectory = .present here ∧ ∃ name ∈ here, c ∈ name.toList := by
  have hsep : c ∉ "/".toList := by simpa using hslash
  obtain ⟨here, rfl, hcases⟩ := Disk.absolute_cases h
  have hbase : c ∈ (Path.mk ("/" ++ Text.joinWith "/" here)).text.toList ↔
      ∃ name ∈ here, c ∈ name.toList := by
    rw [String.toList_append, List.mem_append, or_iff_right hsep, Text.mem_joinWith_iff hsep]
  rw [Path.mem_anchoredAt_iff hslash hdot, hbase]
  refine or_congr_right (and_congr_right fun hrel => ?_)
  have hpresent := hcases.resolve_left (by simp [hrel])
  simp [hpresent]

/-- An absolute form has a NUL in it when the path has. -/
theorem Disk.nul_mem_absolute_iff {d : Disk} (hd : d.IsNulFree) {p q : Path} (h : d.absolute p = .ok q) :
    '\x00' ∈ q.text.toList ↔ '\x00' ∈ p.text.toList := by
  rw [Disk.mem_absolute_iff (by decide) (by decide) h, or_iff_left]
  rintro ⟨-, here, hpresent, name, hname, hmem⟩
  exact hd here hpresent name hname hmem

namespace Location

open Classpath (SpellsNul)

/-- Whether a text is a file URL in whose path an escape spells a NUL. -/
def EscapesNul (text : List Char) : Prop :=
  ∃ scheme rest, Text.cut? [':'] text = some (scheme, rest) ∧ Classpath.isScheme scheme = true ∧
    scheme.map Char.toLower = "file".toList ∧ SpellsNul (Classpath.dropAuthority rest)

theorem nul_mem_spelledPath_iff {text : List Char} {p : Path} (hnul : '\x00' ∉ text)
    (h : spelledPath text = .ok p) : '\x00' ∈ p.text.toList ↔ EscapesNul text := by
  -- A plain path is the text itself, and no URL.
  have hplain : '\x00' ∉ (String.ofList text).toList := by rwa [String.toList_ofList]
  unfold spelledPath at h
  split at h
  · next scheme rest hcut =>
    split at h
    · next hscheme =>
      split at h
      · next hfile =>
        split at h
        · next decoded hdecoded =>
          obtain rfl := Except.ok.inj h
          have hrest : '\x00' ∉ Classpath.dropAuthority rest := by
            intro hmem
            have hmem := (Classpath.mem_of_mem_dropAuthority hmem).resolve_right (by decide)
            apply hnul
            rw [Text.eq_append_of_cut? hcut]
            exact List.mem_append_right _ hmem
          rw [Classpath.nul_mem_percentDecode_iff hdecoded hrest]
          constructor
          · exact fun hspells => ⟨scheme, rest, hcut, hscheme, hfile, hspells⟩
          · rintro ⟨scheme', rest', hcut', -, -, hspells⟩
            obtain ⟨-, rfl⟩ := Prod.mk.inj (Option.some.inj (hcut.symm.trans hcut'))
            exact hspells
        · cases h
      · cases h
    · next hscheme =>
      obtain rfl := Except.ok.inj h
      refine iff_of_false hplain ?_
      rintro ⟨scheme', rest', hcut', hscheme', -⟩
      obtain ⟨rfl, -⟩ := Prod.mk.inj (Option.some.inj (hcut.symm.trans hcut'))
      exact hscheme hscheme'
  · next hcut =>
    obtain rfl := Except.ok.inj h
    refine iff_of_false hplain ?_
    rintro ⟨scheme, rest, hcut', -⟩
    cases hcut.symm.trans hcut'

end Location

/-! ## Programs that are told of locations -/

namespace Instrumenter

open Classpath (Context)
open Nested (Resolver)

/-- The class path can be passed to a program when no location has a NUL in its path. -/
theorem isPassable_classpathValue_iff {c : Context} :
    isPassable (classpathValue c) = true ↔ ∀ l ∈ c.locations, '\x00' ∉ l.path.text.toList := by
  unfold isPassable classpathValue
  rw [Bool.not_eq_true', Bool.eq_false_iff, Ne, List.contains_iff_mem,
    Text.mem_joinWith_iff (by decide)]
  simp

/-- With a NUL on the class path no process is started for any request. -/
theorem transform_of_not_passable (i : Instrumenter) (d : Disk) {r : Resolver} (q : Request)
    (h : isPassable (classpathValue r.context) = false) :
    (i.transform d r q).started = none ∧ (i.transform d r q).disk = d ∧
      (i.transform d r q).finding.errors ≠ [] := by
  rcases i.transform_cases d r q with ⟨e, r', heq⟩ | ⟨forms, r', hcontext, heq⟩
  · rw [heq]
    exact ⟨rfl, rfl, List.cons_ne_nil _ _⟩
  · have hargs : (i.arguments r' d q forms).all isPassable = false := by
      rw [List.all_eq_false]
      refine ⟨classpathValue r'.context, ?_, ?_⟩
      · simp [arguments]
      · rw [hcontext, h]
        exact Bool.false_ne_true
    have hlaunch : i.tool.launch d ⟨i.program, i.arguments r' d q forms⟩ =
        (d, .error .nulInArgument) := by
      unfold Tool.launch
      simp [hargs]
    rw [heq]
    unfold concluded
    rw [hlaunch]
    exact ⟨rfl, rfl, List.cons_ne_nil _ _⟩

end Instrumenter

namespace Location

open Classpath (Context)
open Nested (Resolver)

/-- **Locations with a NUL.** A text that is a location has a path that is absolute and not empty. The path
has a NUL in it exactly when the text is a file URL in which an escape spells one. With such a location on
the class path the instrumenter is not started, whatever it is asked for; and no other location keeps a
class path from being passed to a program as a text. -/
theorem parse_nul_iff {d : Disk} {raw : String} {l : Location} (h : parse d raw = .ok l) :
    l.path.isAbsolute = true ∧ l.path.text ≠ "" ∧
      (d.IsNulFree → ('\x00' ∈ l.path.text.toList ↔ EscapesNul (Text.trim raw.toList))) ∧
      ('\x00' ∈ l.path.text.toList →
        ∀ (i : Instrumenter) (now : Disk) (r : Resolver) (q : Request), l ∈ r.context.locations →
          (i.transform now r q).started = none ∧ (i.transform now r q).disk = now ∧
            (i.transform now r q).finding.errors ≠ []) ∧
      ∀ c : Context, isPassable (Instrumenter.classpathValue c) = true ↔
        ∀ l' ∈ c.locations, '\x00' ∉ l'.path.text.toList := by
  obtain ⟨hnul, p, q, hspelled, habsolute, rfl⟩ := exists_of_parse h
  have habs : q.isAbsolute = true := Disk.isAbsolute_of_absolute habsolute
  refine ⟨habs, ?_, ?_, ?_, fun c => Instrumenter.isPassable_classpathValue_iff⟩
  · intro hempty
    have hne := Path.isEmpty_text_of_isAbsolute habs
    rw [show q.text = "" from hempty] at hne
    cases hne
  · intro hd
    show '\x00' ∈ q.text.toList ↔ _
    rw [Disk.nul_mem_absolute_iff hd habsolute, nul_mem_spelledPath_iff hnul hspelled]
  · intro hmem i now r request hl
    apply i.transform_of_not_passable
    rw [Bool.eq_false_iff, Ne, Instrumenter.isPassable_classpathValue_iff]
    exact fun hall => hall _ hl hmem

namespace Sample

/-- A resolver whose class path is one location with a NUL. -/
def unstartable : Resolver :=
  .new beside [] ⟨[⟨⟨"file:///a%00b", ⟨"/a\x00b"⟩, false⟩, none⟩], none⟩ ⟨"/o"⟩

theorem isNulFree_beside : beside.IsNulFree := by
  intro here hw
  obtain rfl : ["w"] = here := WorkingDirectory.present.inj hw
  decide

theorem parse_nul : parse beside "file:///a%00b" = .ok ⟨"file:///a%00b", ⟨"/a\x00b"⟩, false⟩ := by
  decide

/-- An escape that spells a NUL gets it into the path, and then no process is started. -/
theorem parse_nul_iff_escaped :
    EscapesNul (Text.trim "file:///a%00b".toList) ∧ (Path.mk "/a\x00b").isAbsolute = true ∧
      ∀ (i : Instrumenter) (now : Disk) (q : Request),
        (i.transform now unstartable q).started = none := by
  obtain ⟨habs, -, hiff, hstart, -⟩ := parse_nul_iff parse_nul
  have hmem : '\x00' ∈ "/a\x00b".toList := by decide
  exact ⟨(hiff isNulFree_beside).mp hmem, habs,
    fun i now q => (hstart hmem i now unstartable q (by decide)).1⟩

/-- Not all locations have paths that can be passed to a program. -/
theorem not_forall_nul_notMem :
    ¬ ∀ (d : Disk) (raw : String) (l : Location), d.IsNulFree → parse d raw = .ok l →
      l.path.isAbsolute = true ∧ l.path.text ≠ "" ∧ '\x00' ∉ l.path.text.toList := by
  intro hall
  obtain ⟨-, -, hnul⟩ := hall _ _ _ isNulFree_beside parse_nul
  exact absurd (by decide) hnul

end Sample

end Location

end FormWeaver
