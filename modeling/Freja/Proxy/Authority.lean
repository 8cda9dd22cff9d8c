import Freja.Domain.Labels
import Freja.Foundation.IpText
import Freja.Proxy.Headers
import Freja.Proxy.Target

namespace Freja.Proxy
open Domain IpAddress Splitting Bytes

-- Decimal digits of a number of sixteen bits.
def decimal16 (text : String) : Option Nat :=
  if text.toList.isEmpty || !text.toList.all Char.isDigit then none
  else if Nat.ofDigitChars 10 text.toList 0 ≤ 65535 then some (Nat.ofDigitChars 10 text.toList 0)
  else none

-- A host holds colons only inside brackets.
def HostPart (host : String) : Prop :=
  (':' ∉ host.toList ∧ host.toList.head? ≠ some '[') ∨ ∃ inner, host = "[" ++ inner ++ "]" ∧ ']' ∉ inner.toList

-- An authority the `http` crate has parsed, without user information. The text
-- after the colon of the host may be anything without another colon.
structure Authority where
  host : String
  port : Option String
  hosted : HostPart host
  ported : ∀ text, port = some text → ':' ∉ text.toList

def Authority.text (authority : Authority) : String :=
  match authority.port with
  | some port => authority.host ++ ":" ++ port
  | none => authority.host

def UriParts.Parsed (uri : UriParts) : Prop :=
  ∀ authority, uri.authority = some authority → '@' ∉ authority.toList → ∃ written : Authority, written.text = authority

structure HttpCrate.ReadsAuthorities (crate : HttpCrate) : Prop where
  host : ∀ written : Authority, crate.host written.text = written.host
  port : ∀ written : Authority, crate.portU16 written.text = written.port.bind decimal16

-- The text of the target tells the host and the port that are kept beside it.
structure ForwardTarget.Told (parseIp : String → Option IpAddr) (absent : Option Port) (target : ForwardTarget) : Prop where
  written : ∃ authority : Authority, target.authority = authority.text ∧
    TargetHost.parse parseIp authority.host = .ok target.host ∧
    (authority.port = none → absent = some target.port) ∧
    ∀ text, authority.port = some text → decimal16 text = some target.port.value
  sent : ∀ headers hosted, Headers.regenerateHost headers target.authority = some hosted →
    hosted.getAll "host" = [utf8 target.authority]

-- The port is left out, or it is a number of sixteen bits.
def UriParts.PortReadable (uri : UriParts) : Prop :=
  ∀ written : Authority, uri.authority = some written.text → ∀ text, written.port = some text → decimal16 text ≠ none

theorem requireAuthority_ok (done : requireAuthority given = .ok authority) :
    given = some authority ∧ '@' ∉ authority.toList := by
  unfold requireAuthority rejectUserinfo at done
  split at done
  · split at done
    · cases done
    · rename_i anonymous
      cases done
      exact ⟨rfl,by simpa using anonymous⟩
  · cases done

theorem portNew_value (done : Port.new number = .ok port) : port.value = number := by
  unfold Port.new at done
  split at done
  · cases done
    rfl
  · cases done

theorem regenerateHost_sent (done : Headers.regenerateHost headers authority = some hosted) :
    hosted.getAll "host" = [utf8 authority] := by
  unfold Headers.regenerateHost at done
  split at done
  · cases done
    exact headers.getAll_insert_self "host" _
  · cases done

theorem HttpCrate.ReadsAuthorities.unique {crate : HttpCrate} (reads : crate.ReadsAuthorities)
    {left right : Authority} (same : left.text = right.text) : left.port = right.port := by
  have host : left.host = right.host := by
    rw [← reads.host left,← reads.host right,same]
  have longer (text : String) : right.host ++ ":" ++ text ≠ right.host := by
    intro equal
    have lengths := congrArg String.length equal
    simp only [String.length_append] at lengths
    have colon : ":".length = 1 := rfl
    omega
  unfold Authority.text at same
  rw [host] at same
  cases first : left.port with
  | none =>
      cases second : right.port with
      | none => rfl
      | some text =>
          rw [first,second] at same
          exact absurd same.symm (longer text)
  | some text =>
      cases second : right.port with
      | none =>
          rw [first,second] at same
          exact absurd same (longer text)
      | some =>
          rw [first,second] at same
          have lists := congrArg String.toList same
          simp only [String.toList_append,List.append_assoc] at lists
          have tails := List.append_cancel_left (List.append_cancel_left lists)
          rw [String.toList_inj.mp tails]

section

variable {crate : HttpCrate} (reads : crate.ReadsAuthorities) {uri : UriParts} (parsed : uri.Parsed)
  {target : ForwardTarget}

include reads parsed

theorem target_parts (required : requireAuthority uri.authority = .ok target.authority)
    (named : ForwardTarget.parseHost crate target.authority = .ok target.host)
    (numbered : ForwardTarget.parsePort crate target.authority absent = .ok target.port) :
    ∃ written : Authority, target.authority = written.text ∧ uri.authority = some written.text ∧
      TargetHost.parse crate.parseIp written.host = .ok target.host ∧
      ((written.port.bind decimal16 = none ∧ absent = .ok target.port) ∨
        written.port.bind decimal16 = some target.port.value) := by
  obtain ⟨given,anonymous⟩ := requireAuthority_ok required
  obtain ⟨written,text⟩ := parsed target.authority given anonymous
  refine ⟨written,text.symm,text ▸ given,?_,?_⟩
  · have host := Effect.mapError_ok.mp named
    rwa [← text,reads.host written] at host
  · unfold ForwardTarget.parsePort at numbered
    rw [← text,reads.port written] at numbered
    cases number : written.port.bind decimal16 with
    | none =>
        rw [number] at numbered
        exact .inl ⟨rfl,numbered⟩
    | some =>
        rw [number] at numbered
        right
        rw [portNew_value (Effect.mapError_ok.mp numbered)]

theorem told_iff (required : requireAuthority uri.authority = .ok target.authority)
    (named : ForwardTarget.parseHost crate target.authority = .ok target.host)
    (numbered : ForwardTarget.parsePort crate target.authority (.ok usual) = .ok target.port) :
    target.Told crate.parseIp (some usual) ↔ uri.PortReadable := by
  obtain ⟨written,text,given,host,port⟩ := target_parts reads parsed required named numbered
  constructor
  · intro told other also number ported
    obtain ⟨authority,same,_,_,told⟩ := told.written
    have written : authority.text = other.text := by
      rw [← same,text]
      exact Option.some.inj (given.symm.trans also)
    have read := told number (by rw [reads.unique written,ported])
    rw [read]
    exact Option.some_ne_none _
  · intro readable
    refine ⟨⟨written,text,host,?_,?_⟩,fun headers hosted => regenerateHost_sent⟩
    · intro missing
      rcases port with ⟨_,absent⟩ | number
      · cases absent
        rfl
      · rw [missing] at number
        cases number
    · intro number ported
      rcases port with ⟨unread,_⟩ | read
      · rw [ported] at unread
        exact absurd unread (readable written given number ported)
      · rwa [ported] at read

theorem told_connect (required : requireAuthority uri.authority = .ok target.authority)
    (named : ForwardTarget.parseHost crate target.authority = .ok target.host)
    (numbered : ForwardTarget.parsePort crate target.authority (.error missing) = .ok target.port) :
    target.Told crate.parseIp none := by
  obtain ⟨written,text,_,host,port⟩ := target_parts reads parsed required named numbered
  have number : written.port.bind decimal16 = some target.port.value := by
    rcases port with ⟨_,absent⟩ | number
    · cases absent
    · exact number
  refine ⟨⟨written,text,host,?_,?_⟩,fun headers hosted => regenerateHost_sent⟩
  · intro missing
    rw [missing] at number
    cases number
  · intro text ported
    rwa [ported] at number

end

theorem authorized_port_told (crate : HttpCrate) (reads : crate.ReadsAuthorities) (uri : UriParts) (parsed : uri.Parsed) :
    (∀ target, ForwardTarget.fromAbsolute crate uri = .ok target →
      (target.Told crate.parseIp (some ForwardScheme.http.defaultPort) ↔ uri.PortReadable)) ∧
      (∀ target scheme, ForwardTarget.fromRepeat crate uri = .ok (target,scheme) →
        (target.Told crate.parseIp (some scheme.defaultPort) ↔ uri.PortReadable)) ∧
      ∀ target, ForwardTarget.fromConnect crate uri = .ok target → target.Told crate.parseIp none := by
  refine ⟨?_,?_,?_⟩
  · intro target done
    obtain ⟨_,required,named,numbered,_⟩ := ForwardTarget.fromAbsolute_ok crate done
    exact told_iff reads parsed required named numbered
  · intro target scheme done
    obtain ⟨_,required,named,numbered,_⟩ := ForwardTarget.fromRepeat_ok crate done
    exact told_iff reads parsed required named numbered
  · intro target done
    obtain ⟨required,named,numbered⟩ := ForwardTarget.fromConnect_ok crate done
    exact told_connect reads parsed required named numbered

-- A crate that reads the parts of an authority from its text.
def authorityHost (authority : String) : String :=
  if authority.toList.head? = some '[' then String.ofList (authority.toList.takeWhile (· != ']') ++ [']'])
  else String.ofList (authority.toList.takeWhile (· != ':'))

def authorityPort (authority : String) : Option Nat :=
  (rsplitOnce ':' authority.toList).bind (fun cut => decimal16 (String.ofList cut.2))

def readingCrate : HttpCrate := {plainCrate with host := authorityHost,portU16 := authorityPort,parseIp := read}

theorem takeWhile_until {front rest : List Char} (free : mark ∉ front)
    (stop : ∀ first, rest.head? = some first → first = mark) :
    (front ++ rest).takeWhile (· != mark) = front := by
  refine (takeWhile_stops _ front rest ?_ ?_).1
  · exact fun character member => bne_iff_ne.mpr (fun same => free (same ▸ member))
  · exact fun first here => bne_eq_false_iff_eq.mpr (stop first here)

theorem authorityHost_text (written : Authority) : authorityHost written.text = written.host := by
  have followed : ∃ rest, written.text.toList = written.host.toList ++ rest ∧ (rest = [] ∨ rest.head? = some ':') := by
    unfold Authority.text
    cases written.port with
    | none => exact ⟨[],by simp,.inl rfl⟩
    | some port => exact ⟨':' :: port.toList,by simp,.inr rfl⟩
  obtain ⟨rest,text,start⟩ := followed
  apply String.toList_inj.mp
  unfold authorityHost
  rw [text]
  rcases written.hosted with ⟨plain,unbracketed⟩ | ⟨inner,bracketed,closed⟩
  · have first : (written.host.toList ++ rest).head? ≠ some '[' := by
      cases front : written.host.toList with
      | nil =>
          rcases start with empty | colon
          · simp [empty]
          · simp [colon]
      | cons =>
          rw [front] at unbracketed
          exact unbracketed
    rw [if_neg first,String.toList_ofList]
    rw [takeWhile_until plain]
    intro first here
    rcases start with rfl | colon
    · cases here
    · exact Option.some.inj (here.symm.trans colon)
  · have front : written.host.toList = '[' :: (inner.toList ++ [']']) := by simp [bracketed]
    have cut : '[' :: (inner.toList ++ [']']) ++ rest = ('[' :: inner.toList) ++ ']' :: rest := by simp
    have free : ']' ∉ '[' :: inner.toList := by simpa using closed
    have first : ('[' :: inner.toList ++ ']' :: rest).head? = some '[' := rfl
    rw [front,cut,if_pos first,String.toList_ofList,takeWhile_until free (by simp)]
    rfl

theorem decimal16_bracket (inside : ']' ∈ text.toList) : decimal16 text = none := by
  have other : (text.toList.isEmpty || !text.toList.all Char.isDigit) = true := by
    rw [Bool.or_eq_true]
    right
    rw [Bool.not_eq_true',List.all_eq_false]
    exact ⟨']',inside,by decide⟩
  unfold decimal16
  rw [if_pos other]

theorem authorityPort_text (written : Authority) : authorityPort written.text = written.port.bind decimal16 := by
  unfold authorityPort Authority.text
  cases ported : written.port with
  | some port =>
      have text : (written.host ++ ":" ++ port).toList = written.host.toList ++ ':' :: port.toList := by simp
      rw [text,rsplitOnce_join ':' _ _ (written.ported port ported)]
      simp
  | none =>
      cases found : rsplitOnce ':' written.host.toList with
      | none => rfl
      | some cut =>
          obtain ⟨whole,free⟩ := rsplitOnce_some found
          -- Only a host in brackets holds a colon, and what follows it ends with
          -- the closing bracket.
          rcases written.hosted with ⟨plain,_⟩ | ⟨inner,bracketed,_⟩
          · exact absurd (by rw [whole]; simp) plain
          · have last : (cut.1 ++ ':' :: cut.2).getLast? = some ']' := by
              rw [← whole,bracketed,String.toList_append,List.getLast?_append]
              rfl
            have inside : ']' ∈ cut.2 := by
              rw [List.getLast?_append,List.getLast?_cons] at last
              cases ending : cut.2.getLast? with
              | none => simp [ending] at last
              | some =>
                  simp only [ending,Option.getD_some,Option.some_or,Option.some.injEq] at last
                  subst last
                  exact List.mem_of_getLast? ending
            exact decimal16_bracket (by rwa [String.toList_ofList])

theorem readingCrate_reads : readingCrate.ReadsAuthorities := ⟨authorityHost_text,authorityPort_text⟩

def portedName : HostName := ⟨"web.test",by decide,by decide⟩

-- The authority asks for a port that does not exist, and port 80 is authorized.
theorem unreadable_port_authorized :
    ForwardTarget.fromAbsolute readingCrate ⟨some "http",some "web.test:99999","/",none⟩ =
        .ok ⟨.name portedName,⟨80,Port.http⟩,"web.test:99999",some "/"⟩ ∧
      ForwardTarget.fromAbsolute readingCrate ⟨some "http",some "web.test:","/",none⟩ =
        .ok ⟨.name portedName,⟨80,Port.http⟩,"web.test:",some "/"⟩ ∧
      (Headers.regenerateHost .empty "web.test:99999").map (fun hosted => hosted.getAll "host") =
        some [utf8 "web.test:99999"] := by
  decide +kernel

theorem portedHost : HostPart "web.test" := .inl ⟨by decide,by decide⟩

theorem portedDigits : ∀ text, some "8080" = some text → ':' ∉ text.toList := by
  intro text same
  cases same
  decide

def portedAuthority : Authority := ⟨"web.test",some "8080",portedHost,portedDigits⟩

def portedUri : UriParts := ⟨some "http",some "web.test:8080","/",none⟩

theorem portedNumber : 0 < 8080 ∧ 8080 ≤ 65535 := by decide

def portedTarget : ForwardTarget := ⟨.name portedName,⟨8080,portedNumber⟩,"web.test:8080",some "/"⟩

theorem portedUri_parsed : portedUri.Parsed := by
  intro authority given _
  cases given
  exact ⟨portedAuthority,rfl⟩

theorem portedUri_readable : portedUri.PortReadable := by
  intro written given text ported
  have same : written.text = portedAuthority.text := (Option.some.inj given).symm
  have port := readingCrate_reads.unique same
  rw [ported] at port
  cases port
  decide

theorem portedTarget_told :
    ForwardTarget.fromAbsolute readingCrate portedUri = .ok portedTarget ∧
      portedTarget.Told readingCrate.parseIp (some ForwardScheme.http.defaultPort) := by
  have done : ForwardTarget.fromAbsolute readingCrate portedUri = .ok portedTarget := by decide +kernel
  have told := (authorized_port_told readingCrate readingCrate_reads portedUri portedUri_parsed).1 portedTarget done
  exact ⟨done,told.mpr portedUri_readable⟩

end Freja.Proxy
