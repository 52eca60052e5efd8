import Middlewared.MountInfo
import Middlewared.PySplit

/-!
# Lines of mounts

A line gives back what was written where it has an optional field, no `\r`, and a source that is
one word, and where a blank is the only character that has been escaped.
-/

namespace Middlewared

open PyString PyText List

theorem isSpace_of_isDigit {c : Char} (hc : c.isDigit) : isSpace c = false := by
  rw [Char.isDigit_iff_toNat] at hc
  have hbounds : 48 ≤ c.toNat ∧ c.toNat ≤ 57 := hc
  unfold isSpace
  simp
  omega

theorem stripChars_eq_self {text : List Char}
    (hword : ∀ c ∈ text, isSpace c = false) : stripChars text = text := by
  rw [stripChars_eq_self_iff, dropWhile_eq_self_iff, rdropWhile_eq_self_iff]
  constructor
  · intro hpos
    simp [hword _ (getElem_mem hpos)]
  · intro hne
    simp [hword _ (getLast_mem hne)]

theorem notMem_decimal {c : Char} (hc : c.isDigit = false) (n : ℕ) : c ∉ decimal n :=
  notMem_toDigits hc n

namespace DecimalDigits

variable {digits : DecimalDigits} {text : List Char}

theorem readDigits_eq_foldlM (htext : '_' ∉ text) (number : ℕ) :
    digits.readDigits number text = text.foldlM digits.addDigit number := by
  induction text generalizing number with
  | nil => rfl
  | cons c rest ih =>
    rw [mem_cons, not_or] at htext
    rw [readDigits.eq_def, foldlM_cons]
    simp only [if_neg (Ne.symm htext.1)]
    congr
    funext number
    exact ih htext.2 number

theorem readMagnitude_eq_int? (htext : '_' ∉ text) :
    digits.readMagnitude text = (digits.int? text).map Int.ofNat := by
  cases text with
  | nil => rfl
  | cons c rest =>
    rw [mem_cons, not_or] at htext
    rw [readMagnitude, int?, foldlM_cons]
    · congr
      funext number
      exact readDigits_eq_foldlM htext.2 number
    · nofun

theorem toInt?_decimal (n : ℕ) : digits.toInt? (decimal n) = some (n : ℤ) := by
  have hdigit : ∀ c ∈ decimal n, c.isDigit := fun c hc =>
    Nat.isDigit_of_mem_toDigits (by omega) (by omega) hc
  have hstrip : stripChars (decimal n) = decimal n :=
    stripChars_eq_self fun c hc => isSpace_of_isDigit (hdigit c hc)
  have hread : digits.readMagnitude (decimal n) = some (n : ℤ) := by
    rw [readMagnitude_eq_int? (notMem_decimal rfl n), decimal, int?_toDigits]
    rfl
  unfold toInt?
  rw [hstrip]
  split
  · rename_i rest heq
    exact absurd (hdigit '-' (by rw [heq]; exact mem_cons_self)) (by decide)
  · rename_i rest heq
    exact absurd (hdigit '+' (by rw [heq]; exact mem_cons_self)) (by decide)
  · exact hread

theorem toInt?_cons {c : Char} (hspace : isSpace c = false)
    (hsign : c ≠ '-' ∧ c ≠ '+') (hdigit : digits.value c = none)
    (rest : List Char) : digits.toInt? (c :: rest) = none := by
  have hstrip : ∃ rest', stripChars (c :: rest) = c :: rest' := by
    unfold stripChars
    rw [dropWhile_cons_of_neg (by simp [hspace])]
    have hkept := rdropWhile_prefix isSpace (l := c :: rest)
    rcases prefix_cons_iff.mp hkept with hnil | ⟨rest', heq, _⟩
    · have hblank := rdropWhile_eq_nil_iff.mp hnil c mem_cons_self
      rw [hspace] at hblank
      cases hblank
    · exact ⟨rest', heq⟩
  obtain ⟨rest', hrest⟩ := hstrip
  unfold toInt?
  rw [hrest]
  split
  · rename_i heq
    exact absurd (List.cons.inj heq).1 hsign.1
  · rename_i heq
    exact absurd (List.cons.inj heq).1 hsign.2
  · rw [readMagnitude, addDigit, hdigit]
    rfl

end DecimalDigits

theorem DeviceNumber.major_pack {major minor : ℕ} (hminor : minor < 2 ^ 32) :
    DeviceNumber.major (DeviceNumber.pack major minor) = major := by
  unfold DeviceNumber.major DeviceNumber.pack
  omega

theorem DeviceNumber.minor_pack {major minor : ℕ} (hminor : minor < 2 ^ 32) :
    DeviceNumber.minor (DeviceNumber.pack major minor) = minor := by
  unfold DeviceNumber.minor DeviceNumber.pack
  omega

/-! ## What has been escaped -/

section

variable {escaped : Char → Bool} {text : List Char}

theorem escape_cons (escaped : Char → Bool) (c : Char) (text : List Char) :
    escape escaped (c :: text) = (if escaped c then octal c else [c]) ++ escape escaped text := rfl

variable {c : Char}

theorem isSpace_of_mem_octal {d : Char} (hd : d ∈ octal c) :
    isSpace d = false := by
  have hall : ∀ n < 8, isSpace n.digitChar = false := by decide
  simp only [octal, mem_cons, not_mem_nil, or_false] at hd
  rcases hd with heq | heq | heq | heq
  · rw [heq]
    rfl
  all_goals
    rw [heq]
    exact hall _ (Nat.mod_lt _ (by omega))

theorem mem_escape_iff (hc : isSpace c) :
    c ∈ escape escaped text ↔ c ∈ text ∧ escaped c = false := by
  unfold escape
  rw [mem_flatMap]
  constructor
  · intro hmem
    obtain ⟨d, hd, hmem⟩ := hmem
    split at hmem
    · have hspace := isSpace_of_mem_octal hmem
      rw [hc] at hspace
      cases hspace
    · rename_i hplain
      have heq := mem_singleton.mp hmem
      rw [heq]
      exact ⟨hd, by simpa using hplain⟩
  · intro hmem
    refine ⟨c, hmem.1, ?_⟩
    rw [if_neg (by simp [hmem.2])]
    exact mem_singleton_self c

theorem digitChar_inj {m n : ℕ} (hm : m < 8) (hn : n < 8)
    (heq : m.digitChar = n.digitChar) : m = n := by
  have hall : ∀ m < 8, ∀ n < 8, m.digitChar = n.digitChar → m = n := by decide
  exact hall m hm n hn heq

theorem octal_eq_iff (hc : c.toNat < 512) : octal c = ['\\', '0', '4', '0'] ↔ c = ' ' := by
  constructor
  · intro heq
    simp only [octal, List.cons.injEq, and_true, true_and] at heq
    have hfirst := @digitChar_inj _ 0 (Nat.mod_lt _ (by omega)) (by omega) heq.1
    have hsecond := @digitChar_inj _ 4 (Nat.mod_lt _ (by omega)) (by omega) heq.2.1
    have hthird := @digitChar_inj _ 0 (Nat.mod_lt _ (by omega)) (by omega) heq.2.2
    have hcode : c.toNat = ' '.toNat := by
      change c.toNat = 32
      omega
    exact Char.toNat_inj.mp hcode
  · intro heq
    rw [heq]
    rfl

theorem unescape_octal_append (hc : c.toNat < 512) (hne : c ≠ ' ')
    (rest : List Char) : MountInfo.unescape (octal c ++ rest) =
    octal c ++ MountInfo.unescape rest := by
  have hall : ∀ n < 8, n.digitChar ≠ '\\' := by decide
  have hdigit (n : ℕ) (rest : List Char) : MountInfo.unescape ((n % 8).digitChar :: rest) =
        (n % 8).digitChar :: MountInfo.unescape rest := by
    apply replaceAll_cons
    rw [isPrefixOf_cons_cons]
    simp [Ne.symm (hall _ (Nat.mod_lt n (by omega)))]
  have hmiss : ['\\', '0', '4', '0'].isPrefixOf (octal c ++ rest) = false := by
    rw [Bool.eq_false_iff, Ne, isPrefixOf_iff_prefix]
    intro hprefix
    have heq := prefix_iff_eq_take.mp hprefix
    have htake : (octal c ++ rest).take 4 = octal c := rfl
    exact hne ((octal_eq_iff hc).mp (heq.trans htake).symm)
  have hstep : MountInfo.unescape (octal c ++ rest) =
      '\\' :: MountInfo.unescape ((octal c).tail ++ rest) :=
    replaceAll_cons hmiss
  rw [hstep]
  simp only [octal, tail_cons, cons_append, nil_append, hdigit]

theorem unescape_escape (hbackslash : escaped '\\')
    (hsmall : ∀ c, escaped c → c.toNat < 512) (text : List Char) :
    MountInfo.unescape (escape escaped text) =
      escape (fun c => escaped c && decide (c ≠ ' ')) text := by
  induction text with
  | nil => rfl
  | cons c text ih =>
    rw [escape_cons, escape_cons, ← ih]
    cases hc : escaped c with
    | true =>
      by_cases hspace : c = ' '
      · rw [hspace]
        exact replaceAll_append (by nofun) _
      · rw [if_pos rfl, if_pos (by simp [hspace])]
        exact unescape_octal_append (hsmall c hc) hspace _
    | false =>
      apply replaceAll_cons
      rw [isPrefixOf_cons_cons]
      have hne : '\\' ≠ c := by
        intro heq
        rw [← heq, hbackslash] at hc
        cases hc
      simp [hne]

theorem length_escape (escaped : Char → Bool) (text : List Char) :
    (escape escaped text).length = text.length + 3 * text.countP escaped := by
  induction text with
  | nil => rfl
  | cons c text ih =>
    rw [escape_cons, length_append, ih, countP_cons, length_cons]
    cases escaped c
    · simp
      omega
    · simp [octal]
      omega

theorem escape_eq_self_iff : escape escaped text = text ↔ ∀ c ∈ text, escaped c = false := by
  constructor
  · intro heq c hc
    have hlength := congrArg List.length heq
    rw [length_escape] at hlength
    have hzero : text.countP escaped = 0 := by omega
    simpa using countP_eq_zero.mp hzero c hc
  · intro hplain
    unfold escape
    rw [flatMap_congr (g := fun c => [c])]
    · exact flatMap_singleton' text
    · intro c hc
      rw [hplain c hc]
      rfl

def Survives (escaped : Char → Bool) (text : List Char) : Prop :=
  ∀ c ∈ text, escaped c → c = ' '

theorem unescape_escape_eq_self_iff (hbackslash : escaped '\\')
    (hsmall : ∀ c, escaped c → c.toNat < 512) :
    MountInfo.unescape (escape escaped text) = text ↔ Survives escaped text := by
  rw [unescape_escape hbackslash hsmall, escape_eq_self_iff]
  unfold Survives
  simp

end

/-! ## What a line has to be -/

namespace MountInfo

variable {rt : MountRuntime} {line : List Char} {entry : MountEntry}

theorem toInt_decimal (n : ℕ) : toInt rt (decimal n) = .ok (n : ℤ) := by
  rw [toInt, DecimalDigits.toInt?_decimal]

theorem toInt_letter (rest : List Char) : toInt rt ('r' :: rest) = .error .valueError := by
  rw [toInt, DecimalDigits.toInt?_cons rfl (by decide) rt.letter]

section

variable {mntId parentId majMin root mp opts fstype mntSrc superOpts :
  List Char}

theorem entryOfParts_eq_ok (hok : entryOfParts rt mntId parentId majMin root mp opts fstype mntSrc
      superOpts = .ok entry) :
    ∃ major minor, majMin.splitOn ':' = [major, minor] ∧
      toInt rt major = .ok entry.major ∧ toInt rt mntId = .ok entry.mountId ∧
      toInt rt parentId = .ok entry.parentId ∧ entry.root = unescape root ∧
      entry.mountpoint = unescape mp ∧ entry.mountSource = unescape mntSrc := by
  unfold entryOfParts at hok
  split at hok
  · rename_i major minor hsplit
    simp only [bind_eq_ok_iff] at hok
    obtain ⟨i, hi, j, _, devid, _, m, hm, p, hp, heq⟩ := hok
    cases heq
    exact ⟨major, minor, hsplit, hi, hm, hp, rfl, rfl, rfl⟩
  · cases hok

theorem entryOfParts_eq {major minor : List Char} {i j m p : ℤ} {device : ℕ}
    (hsplit : majMin.splitOn ':' = [major, minor])
    (hmajor : toInt rt major = .ok i) (hminor : toInt rt minor = .ok j)
    (hdevice : DeviceNumber.makedev i j = .ok device)
    (hmount : toInt rt mntId = .ok m) (hparent : toInt rt parentId = .ok p) :
    entryOfParts rt mntId parentId majMin root mp opts fstype mntSrc superOpts = .ok {
        mountId := m
        parentId := p
        major := i
        minor := j
        devT := device
        root := unescape root
        mountpoint := unescape mp
        mountOpts := options rt opts
        fsType := fstype
        mountSource := unescape mntSrc
        superOpts := options rt superOpts } := by
  unfold entryOfParts
  simp only [hsplit, hmajor, hminor, hdevice, hmount, hparent, ok_bind]
  rfl

theorem mntentDict_eq_ok (hok : mntentDict rt line = .ok entry) :
    ∃ mntId parentId majMin root mp opts extra fields fstype mntSrc superOpts,
      splitLimit ' ' 6 line = [mntId, parentId, majMin, root, mp, opts, extra] ∧
      (splitText [' ', '-', ' '] extra)[1]? = some fields ∧
      words fields = [fstype, mntSrc, superOpts] ∧
      entryOfParts rt mntId parentId majMin root mp opts fstype mntSrc superOpts = .ok entry := by
  unfold mntentDict at hok
  split at hok
  · rename_i hparts
    split at hok
    · cases hok
    · rename_i hfields
      split at hok
      · rename_i hwords
        exact ⟨_, _, _, _, _, _, _, _, _, _, _, hparts, hfields, hwords, hok⟩
      · cases hok
  · cases hok

theorem mntentDict_eq {extra fields : List Char} (hparts : splitLimit ' ' 6 line =
      [mntId, parentId, majMin, root, mp, opts, extra])
    (hfields : (splitText [' ', '-', ' '] extra)[1]? = some fields)
    (hwords : words fields = [fstype, mntSrc, superOpts]) :
    mntentDict rt line = entryOfParts rt mntId parentId majMin root mp opts
      fstype mntSrc superOpts := by
  unfold mntentDict
  simp only [hparts, hfields, hwords]

end

theorem unescape_keeps_words {text : List Char} (hword : ∀ c ∈ text, isSpace c = false) {c : Char}
    (hc : c ∈ unescape text) (hspace : isSpace c) : c = ' ' := by
  rcases mem_of_mem_replaceFrom hc with hnew | htext
  · exact mem_singleton.mp hnew
  · rw [hword c htext] at hspace
    cases hspace

theorem eq_of_mem_mountSource (hok : mntentDict rt line = .ok entry) {c : Char}
    (hc : c ∈ entry.mountSource) (hspace : isSpace c) : c = ' ' := by
  obtain ⟨_, _, _, _, _, _, _, fields, fstype, mntSrc, superOpts, _, _, hwords,
    hentry⟩ := mntentDict_eq_ok hok
  obtain ⟨_, _, _, _, _, _, _, _, hsource⟩ := entryOfParts_eq_ok hentry
  rw [hsource] at hc
  have hmem : mntSrc ∈ words fields := by
    rw [hwords]
    simp
  exact unescape_keeps_words (fun c => not_isSpace_of_mem_words hmem) hc hspace

end MountInfo

end Middlewared
