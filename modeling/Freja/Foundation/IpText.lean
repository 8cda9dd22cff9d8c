import Freja.Foundation.IpAddress
import Freja.Foundation.Splitting

namespace Freja.IpAddress
open Splitting

def hexDigit? (character : Char) : Option Nat :=
  if character.isDigit then some (character.toNat - 48)
  else if 'a' ≤ character ∧ character ≤ 'f' then some (character.toNat - 87)
  else if 'A' ≤ character ∧ character ≤ 'F' then some (character.toNat - 55)
  else none

def readHexadecimal (text : List Char) : Option Nat :=
  text.foldlM (fun value character => (hexDigit? character).map (16 * value + ·)) 0

def readSegment (text : List Char) : Option UInt16 :=
  if text.isEmpty || text.length > 4 then none else (readHexadecimal text).map UInt16.ofNat

-- An octet is written without leading zeroes.
def readOctet (text : List Char) : Option UInt8 :=
  let value := Nat.ofDigitChars 10 text 0
  if value < 256 ∧ Nat.toDigits 10 value = text then some (UInt8.ofNat value) else none

structure Quad where
  a : UInt8
  b : UInt8
  c : UInt8
  d : UInt8
  deriving DecidableEq, Repr

def readV4 (text : List Char) : Option Quad :=
  match (text.splitOn '.').map readOctet with
  | [some a,some b,some c,some d] => some ⟨a,b,c,d⟩
  | _ => none

-- The last two segments may be written as an IPv4 address.
def readLast (text : List Char) : Option (List UInt16) :=
  match readV4 text with
  | some quad =>
      some [UInt16.ofNat (quad.a.toNat * 256 + quad.b.toNat),UInt16.ofNat (quad.c.toNat * 256 + quad.d.toNat)]
  | none => (readSegment text).map ([·])

def readPieces : List (List Char) → Option (List UInt16)
  | [] => some []
  | [last] => readLast last
  | piece :: rest => (readSegment piece).bind (fun segment => (readPieces rest).map (segment :: ·))

def readSegments (text : List Char) : Option (List UInt16) :=
  if text.isEmpty then some [] else readPieces (text.splitOn ':')

-- The first two colons in a row stand for the segments that were left out.
def cutDouble : List Char → Option (List Char × List Char)
  | ':' :: ':' :: rest => some ([],rest)
  | character :: rest => (cutDouble rest).map (fun cut => (character :: cut.1,cut.2))
  | [] => none

def readV6 (text : List Char) : Option (List UInt16) :=
  match cutDouble text with
  | some (front,back) =>
      (readSegments front).bind fun high => (readSegments back).bind fun low =>
        if high.length + low.length < 8 then
          some (high ++ List.replicate (8 - (high.length + low.length)) 0 ++ low)
        else none
  | none => readSegments text

def read (text : String) : Option IpAddr :=
  match readV4 text.toList with
  | some quad => some (.v4 quad.a quad.b quad.c quad.d)
  | none =>
      match readV6 text.toList with
      | some segments => if eight : segments.length = 8 then some (.v6 segments eight) else none
      | none => none

theorem hexDigit_digitChar : ∀ digit < 16, hexDigit? (Nat.digitChar digit) = some digit := by decide

theorem readHexadecimal_toDigits (value : Nat) : readHexadecimal (Nat.toDigits 16 value) = some value := by
  induction value using Nat.strong_induction_on with
  | h value ih =>
      unfold readHexadecimal at ih ⊢
      by_cases small : value < 16
      · rw [Nat.toDigits_of_lt_base small]
        simp [hexDigit_digitChar value small]
      · have shorter := ih (value / 16) (by omega)
        rw [Nat.toDigits_of_base_le (by decide) (by omega),List.foldlM_append,shorter]
        have last := hexDigit_digitChar (value % 16) (by omega)
        have whole : 16 * (value / 16) + value % 16 = value := Nat.div_add_mod value 16
        simp [last,whole]

theorem readSegment_hexadecimal (segment : UInt16) : readSegment (hexadecimal segment) = some segment := by
  unfold readSegment hexadecimal
  have present : Nat.toDigits 16 segment.toNat ≠ [] := Nat.toDigits_ne_nil
  have short : (Nat.toDigits 16 segment.toNat).length ≤ 4 := by
    rw [Nat.length_toDigits_le_iff (by decide) (by decide)]
    exact segment.toNat_lt
  have fits : ¬ ((Nat.toDigits 16 segment.toNat).isEmpty || decide ((Nat.toDigits 16 segment.toNat).length > 4)) = true := by
    simp only [Bool.or_eq_true,List.isEmpty_iff,decide_eq_true_eq,not_or,not_lt]
    exact ⟨present,short⟩
  rw [if_neg fits,readHexadecimal_toDigits,Option.map_some,UInt16.ofNat_toNat]

theorem readOctet_iff {text : List Char} {octet : UInt8} : readOctet text = some octet ↔ decimal octet = text := by
  unfold readOctet decimal
  dsimp only
  constructor
  · intro found
    split at found
    · rename_i fits
      cases found
      rw [UInt8.toNat_ofNat',Nat.mod_eq_of_lt fits.1]
      exact fits.2
    · cases found
  · intro same
    subst same
    rw [Nat.ofDigitChars_ten_toDigits,if_pos ⟨octet.toNat_lt,rfl⟩,UInt8.ofNat_toNat]

theorem decimal_digits (octet : UInt8) : ∀ character ∈ decimal octet, character.isDigit = true :=
  fun _ member => Nat.isDigit_of_mem_toDigits (by decide) (by decide) member

theorem formatV4_joined (a b c d : UInt8) :
    formatV4 a b c d = ['.'].intercalate [decimal a,decimal b,decimal c,decimal d] := by
  simp [formatV4,List.intercalate]

theorem formatV4_character (a b c d : UInt8) :
    ∀ character ∈ formatV4 a b c d, character.isDigit = true ∨ character = '.' := by
  intro character member
  unfold formatV4 at member
  simp only [List.mem_append,List.mem_cons] at member
  rcases member with ((first | rfl | second) | rfl | third) | rfl | fourth
  · exact .inl (decimal_digits a character first)
  · exact .inr rfl
  · exact .inl (decimal_digits b character second)
  · exact .inr rfl
  · exact .inl (decimal_digits c character third)
  · exact .inr rfl
  · exact .inl (decimal_digits d character fourth)

theorem formatV4_free {character : Char} (other : character.isDigit = false ∧ character ≠ '.') :
    character ∉ formatV4 a b c d := by
  intro inside
  rcases formatV4_character a b c d character inside with digit | dot
  · rw [other.1] at digit
    cases digit
  · exact other.2 dot

theorem readV4_iff {text : List Char} {quad : Quad} :
    readV4 text = some quad ↔ formatV4 quad.a quad.b quad.c quad.d = text := by
  constructor
  · intro found
    unfold readV4 at found
    split at found
    · rename_i a b c d pieces
      cases found
      have joined : ['.'].intercalate (text.splitOn '.') = text := List.intercalate_splitOn '.'
      obtain ⟨first,_,split,one,pieces⟩ := List.map_eq_cons_iff.mp pieces
      obtain ⟨second,_,rfl,two,pieces⟩ := List.map_eq_cons_iff.mp pieces
      obtain ⟨third,_,rfl,three,pieces⟩ := List.map_eq_cons_iff.mp pieces
      obtain ⟨fourth,_,rfl,four,pieces⟩ := List.map_eq_cons_iff.mp pieces
      cases List.map_eq_nil_iff.mp pieces
      rw [formatV4_joined,readOctet_iff.mp one,readOctet_iff.mp two,readOctet_iff.mp three,readOctet_iff.mp four,
        ← split,joined]
    · cases found
  · intro same
    have free : ∀ piece ∈ [decimal quad.a,decimal quad.b,decimal quad.c,decimal quad.d], '.' ∉ piece := by
      intro piece member inside
      simp only [List.mem_cons,List.not_mem_nil,or_false] at member
      rcases member with rfl | rfl | rfl | rfl
      all_goals exact absurd (decimal_digits _ _ inside) (by decide)
    have octet (value : UInt8) : readOctet (decimal value) = some value := readOctet_iff.mpr rfl
    unfold readV4
    rw [← same,formatV4_joined,List.splitOn_intercalate '.' free (by simp)]
    simp only [List.map_cons,List.map_nil,octet]

theorem readV4_format (a b c d : UInt8) : readV4 (formatV4 a b c d) = some ⟨a,b,c,d⟩ := readV4_iff.mpr rfl

theorem hexadecimal_digits (segment : UInt16) :
    ∀ character ∈ hexadecimal segment, ∃ digit < 16, character = Nat.digitChar digit := by
  unfold hexadecimal
  generalize segment.toNat = value
  induction value using Nat.strong_induction_on with
  | h value ih =>
      intro character member
      by_cases small : value < 16
      · rw [Nat.toDigits_of_lt_base small,List.mem_singleton] at member
        exact ⟨value,small,member⟩
      · rw [Nat.toDigits_of_base_le (by decide) (by omega),List.mem_append,List.mem_singleton] at member
        rcases member with earlier | last
        · exact ih (value / 16) (by omega) character earlier
        · exact ⟨value % 16,by omega,last⟩

theorem digitChar_plain : ∀ digit < 16, Nat.digitChar digit ≠ ':' ∧ Nat.digitChar digit ≠ '.' ∧ Nat.digitChar digit ≠ '[' := by
  decide

theorem hexadecimal_plain (segment : UInt16) :
    ∀ character ∈ hexadecimal segment, character ≠ ':' ∧ character ≠ '.' ∧ character ≠ '[' := by
  intro character member
  obtain ⟨digit,small,rfl⟩ := hexadecimal_digits segment character member
  exact digitChar_plain digit small

theorem hexadecimal_nonempty (segment : UInt16) : hexadecimal segment ≠ [] := Nat.toDigits_ne_nil

theorem readLast_hexadecimal (segment : UInt16) : readLast (hexadecimal segment) = some [segment] := by
  have single : (hexadecimal segment).splitOn '.' = [hexadecimal segment] := by
    rw [List.splitOn_eq_singleton]
    intro inside
    exact (hexadecimal_plain segment '.' inside).2.1 rfl
  have other : readV4 (hexadecimal segment) = none := by
    unfold readV4
    rw [single]
    cases readOctet (hexadecimal segment) with
    | none | some => simp
  unfold readLast
  rw [other,readSegment_hexadecimal]
  rfl

theorem readPieces_hexadecimal (segments : List UInt16) : readPieces (segments.map hexadecimal) = some segments := by
  induction segments with
  | nil => rfl
  | cons segment rest ih =>
      cases rest with
      | nil => exact readLast_hexadecimal segment
      | cons =>
          simp only [List.map_cons] at ih
          simp only [List.map_cons,readPieces,readSegment_hexadecimal,Option.bind_some,ih,Option.map_some]

theorem formatSegments_cons (segment next : UInt16) (rest : List UInt16) :
    formatSegments (segment :: next :: rest) = hexadecimal segment ++ ':' :: formatSegments (next :: rest) := by
  simp [formatSegments,List.intercalate]

theorem formatSegments_started (segment : UInt16) (rest : List UInt16) :
    ∃ digit tail, formatSegments (segment :: rest) = digit :: tail ∧ digit ≠ ':' := by
  obtain ⟨digit,others,written⟩ := List.exists_cons_of_ne_nil (hexadecimal_nonempty segment)
  have plain := hexadecimal_plain segment digit (by simp [written])
  cases rest with
  | nil => exact ⟨digit,others,by simp [formatSegments,List.intercalate,written],plain.1⟩
  | cons => exact ⟨digit,_,by rw [formatSegments_cons,written]; rfl,plain.1⟩

theorem readSegments_format (segments : List UInt16) : readSegments (formatSegments segments) = some segments := by
  unfold readSegments
  cases segments with
  | nil => rfl
  | cons segment rest =>
      obtain ⟨digit,tail,written,_⟩ := formatSegments_started segment rest
      have free : ∀ piece ∈ (segment :: rest).map hexadecimal, ':' ∉ piece := by
        intro piece member inside
        obtain ⟨one,_,rfl⟩ := List.mem_map.mp member
        exact (hexadecimal_plain one ':' inside).1 rfl
      have split : (formatSegments (segment :: rest)).splitOn ':' = (segment :: rest).map hexadecimal :=
        List.splitOn_intercalate ':' free (by simp)
      rw [if_neg (by simp [written]),split,readPieces_hexadecimal]

theorem cutDouble_other (different : character ≠ ':' ∨ rest.head? ≠ some ':') :
    cutDouble (character :: rest) = (cutDouble rest).map (fun cut => (character :: cut.1,cut.2)) := by
  rw [cutDouble.eq_2]
  intro _ first later
  subst first
  rcases different with no | no
  · exact no rfl
  · exact no (by rw [later]; rfl)

theorem cutDouble_skip (piece text : List Char) (free : ':' ∉ piece) :
    cutDouble (piece ++ text) = (cutDouble text).map (fun cut => (piece ++ cut.1,cut.2)) := by
  induction piece with
  | nil => simp
  | cons character rest ih =>
      have different : character ≠ ':' := fun same => free (by simp [same])
      rw [List.cons_append,cutDouble_other (.inl different),ih (fun inside => free (List.mem_cons_of_mem _ inside)),
        Option.map_map]
      rfl

theorem cutDouble_segments (segments : List UInt16) (text : List Char) :
    cutDouble (formatSegments segments ++ text) =
      (cutDouble text).map (fun cut => (formatSegments segments ++ cut.1,cut.2)) := by
  induction segments with
  | nil => simp [formatSegments,List.intercalate]
  | cons segment rest ih =>
      have free : ':' ∉ hexadecimal segment := fun inside => (hexadecimal_plain segment ':' inside).1 rfl
      cases rest with
      | nil => simpa [formatSegments,List.intercalate] using cutDouble_skip (hexadecimal segment) text free
      | cons next others =>
          obtain ⟨digit,tail,written,plain⟩ := formatSegments_started next others
          have started : (formatSegments (next :: others) ++ text).head? ≠ some ':' := by
            rw [written]
            simpa using plain
          rw [formatSegments_cons,List.append_assoc,cutDouble_skip _ _ free,List.cons_append,
            cutDouble_other (.inr started),ih,Option.map_map,Option.map_map]
          congr 1
          funext cut
          simp

structure ZeroSpan (segments : List UInt16) (span : Span) : Prop where
  inside : span.start + span.length ≤ segments.length
  zero : (segments.drop span.start).take span.length = List.replicate span.length 0

theorem ZeroSpan.snoc (segment : UInt16) (zero : ZeroSpan segments span) : ZeroSpan (segments ++ [segment]) span := by
  have bound := zero.inside
  refine ⟨by simp; omega,?_⟩
  rw [List.drop_append_of_le_length (by omega),List.take_append_of_le_length (by simp; omega)]
  exact zero.zero

theorem ZeroSpan.grow (zero : ZeroSpan segments ⟨start,length⟩) (last : start + length = segments.length) :
    ZeroSpan (segments ++ [0]) ⟨start,length + 1⟩ := by
  have whole : segments.drop start = List.replicate length 0 := by
    have taken := zero.zero
    dsimp only at taken
    rwa [List.take_of_length_le (by simp; omega)] at taken
  refine ⟨by simp; omega,?_⟩
  dsimp only
  rw [List.drop_append_of_le_length (by omega),whole,List.replicate_succ',List.take_of_length_le (by simp)]

theorem zeroSpan_empty (segments : List UInt16) : ZeroSpan segments ⟨0,0⟩ := ⟨by simp,by simp⟩

structure Searched (segments : List UInt16) (search : SpanSearch) : Prop where
  longest : ZeroSpan segments search.longest
  current : ZeroSpan segments search.current
  touching : search.current.length = 0 ∨ search.current.start + search.current.length = segments.length

theorem Searched.next (searched : Searched segments search) (segment : UInt16) :
    Searched (segments ++ [segment]) (search.next (segment,segments.length)) := by
  unfold SpanSearch.next
  dsimp only
  split
  · rename_i zero
    subst zero
    have grown : ZeroSpan (segments ++ [0])
        (if search.current.length = 0 then ⟨segments.length,1⟩ else ⟨search.current.start,search.current.length + 1⟩) := by
      split
      · have fresh : ZeroSpan segments ⟨segments.length,0⟩ := ⟨by simp,by simp⟩
        exact fresh.grow rfl
      · rename_i started
        exact ZeroSpan.grow searched.current (searched.touching.resolve_left started)
    have longer (span : Span) (zero : ZeroSpan (segments ++ [0]) span) :
        ZeroSpan (segments ++ [0]) (if span.length > search.longest.length then span else search.longest) := by
      split
      · exact zero
      · exact searched.longest.snoc _
    refine ⟨longer _ grown,grown,.inr ?_⟩
    · split
      · simp
      · rename_i started
        have touching := searched.touching.resolve_left started
        simp only [List.length_append,List.length_singleton]
        omega
  · exact ⟨searched.longest.snoc _,zeroSpan_empty _,.inl rfl⟩

theorem searched_all (segments : List UInt16) :
    Searched segments (segments.zipIdx.foldl SpanSearch.next ⟨⟨0,0⟩,⟨0,0⟩⟩) := by
  induction segments using List.reverseRecOn with
  | nil => exact ⟨zeroSpan_empty [],zeroSpan_empty [],.inl rfl⟩
  | append_singleton segments segment ih =>
      rw [List.zipIdx_append,List.foldl_append]
      simpa using ih.next segment

theorem longestZeroSpan_split (segments : List UInt16) :
    segments = segments.take (longestZeroSpan segments).start ++
      List.replicate (longestZeroSpan segments).length 0 ++
      segments.drop ((longestZeroSpan segments).start + (longestZeroSpan segments).length) := by
  have zero : ZeroSpan segments (longestZeroSpan segments) := (searched_all segments).longest
  rw [← zero.zero,← List.drop_drop,List.append_assoc,List.take_append_drop,List.take_append_drop]

theorem readV6_compressed (high low : List UInt16) (short : high.length + low.length < 8) :
    readV6 (formatSegments high ++ "::".toList ++ formatSegments low) =
      some (high ++ List.replicate (8 - (high.length + low.length)) 0 ++ low) := by
  have cut : cutDouble (formatSegments high ++ "::".toList ++ formatSegments low) =
      some (formatSegments high,formatSegments low) := by
    have double : cutDouble (':' :: ':' :: formatSegments low) = some ([],formatSegments low) := rfl
    have whole := cutDouble_segments high (':' :: ':' :: formatSegments low)
    rw [double] at whole
    simpa using whole
  unfold readV6
  rw [cut]
  simp only [readSegments_format,Option.bind_some]
  exact if_pos short

theorem readV6_plain (segments : List UInt16) : readV6 (formatSegments segments) = some segments := by
  have cut : cutDouble (formatSegments segments) = none := by
    simpa [cutDouble] using cutDouble_segments segments []
  unfold readV6
  rw [cut]
  exact readSegments_format segments

theorem readV6_mapped (high low : UInt16) :
    readV6 ("::ffff:".toList ++ formatV4 (highOctet high) (lowOctet high) (highOctet low) (lowOctet low)) =
      some [0,0,0,0,0,0xffff,high,low] := by
  have free : ':' ∉ formatV4 (highOctet high) (lowOctet high) (highOctet low) (lowOctet low) :=
    formatV4_free (by decide)
  have last : readLast (formatV4 (highOctet high) (lowOctet high) (highOctet low) (lowOctet low)) = some [high,low] := by
    unfold readLast
    rw [readV4_format]
    simp only [segment_octets]
  generalize formatV4 (highOctet high) (lowOctet high) (highOctet low) (lowOctet low) = quad at free last
  have split : ("ffff".toList ++ ':' :: quad).splitOn ':' = ["ffff".toList,quad] := by
    rw [List.splitOn_append_cons_self,List.splitOn_eq_singleton free]
    rfl
  have first : readSegment "ffff".toList = some 0xffff := by decide
  have pieces : readSegments ("ffff".toList ++ ':' :: quad) = some [0xffff,high,low] := by
    change readPieces (("ffff".toList ++ ':' :: quad).splitOn ':') = _
    rw [split]
    simp only [readPieces,first,last,Option.bind_some,Option.map_some]
  have cut : cutDouble ("::ffff:".toList ++ quad) = some ([],"ffff".toList ++ ':' :: quad) := rfl
  unfold readV6
  rw [cut]
  simp only [pieces,Option.bind_some]
  rfl

theorem readV6_format (segments : List UInt16) (eight : segments.length = 8) :
    readV6 (formatV6 segments) = some segments := by
  unfold formatV6
  split
  · exact readV6_mapped _ _
  · dsimp only
    split
    · rename_i long
      have split := longestZeroSpan_split segments
      have inside := (searched_all segments).longest.inside
      change (longestZeroSpan segments).start + (longestZeroSpan segments).length ≤ _ at inside
      generalize longestZeroSpan segments = span at split inside long
      have taken : (segments.take span.start).length = span.start := by
        rw [List.length_take]
        omega
      have dropped : (segments.drop (span.start + span.length)).length = 8 - (span.start + span.length) := by
        rw [List.length_drop,eight]
      have filled : 8 - (span.start + (8 - (span.start + span.length))) = span.length := by omega
      rw [readV6_compressed _ _ (by omega),taken,dropped,filled,← split]
    · exact readV6_plain segments

theorem formatSegments_colon (segments : List UInt16) (two : 2 ≤ segments.length) : ':' ∈ formatSegments segments := by
  cases segments with
  | nil => simp at two
  | cons first rest =>
      cases rest with
      | nil => simp at two
      | cons =>
          rw [formatSegments_cons]
          simp

theorem formatV6_colon (segments : List UInt16) (eight : segments.length = 8) : ':' ∈ formatV6 segments := by
  unfold formatV6
  split
  · simp
  · dsimp only
    split
    · simp
    · exact formatSegments_colon segments (by omega)

theorem read_format (address : IpAddr) : read (format address) = some address := by
  cases address with
  | v4 a b c d =>
      unfold read format
      rw [String.toList_ofList,readV4_format]
  | v6 segments eight =>
      have other : readV4 (formatV6 segments) = none := by
        cases found : readV4 (formatV6 segments) with
        | none => rfl
        | some =>
            have colon := formatV6_colon segments eight
            rw [← readV4_iff.mp found] at colon
            exact absurd colon (formatV4_free (by decide))
      unfold read format
      rw [String.toList_ofList,other]
      simp only [readV6_format segments eight,eight,dite_true]

theorem formatSegments_unbracketed (segments : List UInt16) : '[' ∉ formatSegments segments := by
  induction segments with
  | nil => simp [formatSegments,List.intercalate]
  | cons segment rest ih =>
      have first : '[' ∉ hexadecimal segment := fun inside => (hexadecimal_plain segment '[' inside).2.2 rfl
      cases rest with
      | nil => simpa [formatSegments,List.intercalate] using first
      | cons =>
          rw [formatSegments_cons,List.mem_append,List.mem_cons,not_or,not_or]
          exact ⟨first,by decide,ih⟩

theorem formatV6_unbracketed (segments : List UInt16) : '[' ∉ formatV6 segments := by
  unfold formatV6
  split
  · intro inside
    rcases List.mem_append.mp inside with mark | quad
    · exact absurd mark (by decide)
    · exact formatV4_free (by decide) quad
  · dsimp only
    split
    · simp only [List.mem_append,not_or]
      exact ⟨⟨formatSegments_unbracketed _,by decide⟩,formatSegments_unbracketed _⟩
    · exact formatSegments_unbracketed segments

theorem format_unbracketed (address : IpAddr) : '[' ∉ (format address).toList := by
  cases address with
  | v4 a b c d =>
      unfold format
      rw [String.toList_ofList]
      exact formatV4_free (by decide)
  | v6 segments =>
      unfold format
      rw [String.toList_ofList]
      exact formatV6_unbracketed segments

end Freja.IpAddress
