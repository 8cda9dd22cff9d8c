import Freja.Audit.Encoding
import Freja.Domain.Labels
import Freja.Foundation.IpText

namespace Freja.Domain
open Bytes IpAddress Splitting

-- The form without a tag is read as an address where that succeeds.
def TargetHost.ofJson (parseIp : String → Option IpAddr) : Json → Option TargetHost
  | .string text =>
      match parseIp text with
      | some address => some (.ip address)
      | none => (HostName.new text).toOption.map .name
  | _ => none

-- What the standard library says of its address texts: it reads what it writes,
-- and a socket address is written in brackets or is an address before a colon.
structure StdNet.Documented (std : StdNet) : Prop where
  address : ∀ address, std.parseIp (format address) = some address
  socketV4 : ∀ a b c d (port : Port),
    std.parseSocket (format (.v4 a b c d) ++ ":" ++ port.text) = some (.v4 a b c d,port.value)
  socketV6 : ∀ segments eight (port : Port),
    std.parseSocket ("[" ++ format (.v6 segments eight) ++ "]:" ++ port.text) = some (.v6 segments eight,port.value)
  socket : ∀ text address port, std.parseSocket text = some (address,port) →
    text.toList.head? = some '[' ∨
      ∃ host digits, text = host ++ ":" ++ digits ∧ ':' ∉ digits.toList ∧ std.parseIp host = some address

-- No address as it stands, and one when its case and its root dot are gone.
def Disguised (parseIp : String → Option IpAddr) (value : String) : Prop :=
  parseIp (stripBrackets value) = none ∧ parseIp (lowercase (stripRootDot value)) ≠ none

structure DisguisedHost (std : StdNet) (value : String) : Prop where
  unaddressed : std.parseSocket value = none
  disguised : ∃ host port, value = host ++ ":" ++ port ∧ ':' ∉ port.toList ∧ Disguised std.parseIp host

theorem stripBrackets_plain {value : String} (plain : value.toList.head? ≠ some '[') : stripBrackets value = value := by
  unfold stripBrackets
  split
  · rename_i rest bracketed
    rw [bracketed] at plain
    exact absurd rfl plain
  · rfl

theorem head_ne {text : List Char} (free : character ∉ text) : text.head? ≠ some character :=
  fun first => free (List.mem_of_head? first)

theorem HostName.without (host : HostName) {character : Char} (other : ¬ LetterOrDigit character)
    (inner : character ≠ '-') (dot : character ≠ '.') : character ∉ host.text.toList := by
  intro member
  rcases host.characters character member with letter | hyphen | point
  · exact other letter
  · exact inner hyphen
  · exact dot point

theorem HostName.unbracketed (host : HostName) : '[' ∉ host.text.toList :=
  host.without (by unfold LetterOrDigit; decide) (by decide) (by decide)

theorem TargetHost.parse_name (parseIp : String → Option IpAddr) (host : HostName) :
    TargetHost.parse parseIp host.text = .ok (.name host) ↔ parseIp host.text = none := by
  unfold TargetHost.parse
  rw [stripBrackets_plain (head_ne host.unbracketed),host.new_text]
  cases parseIp host.text <;> simp [Except.map]

theorem TargetHost.ofJson_name (parseIp : String → Option IpAddr) (host : HostName) :
    TargetHost.ofJson parseIp (TargetHost.name host).json = some (.name host) ↔ parseIp host.text = none := by
  unfold TargetHost.ofJson TargetHost.json TargetHost.asHostText
  dsimp only
  rw [host.new_text]
  cases parseIp host.text <;> simp [Except.toOption]

theorem TargetHost.parse_ok {parseIp : String → Option IpAddr} {value : String} {host : TargetHost}
    (accepted : TargetHost.parse parseIp value = .ok host) :
    (∃ address, host = .ip address ∧ parseIp (stripBrackets value) = some address) ∨
      ∃ name : HostName, host = .name name ∧ parseIp (stripBrackets value) = none ∧
        name.text = lowercase (stripRootDot value) := by
  unfold TargetHost.parse at accepted
  cases read : parseIp (stripBrackets value) with
  | some address =>
      rw [read] at accepted
      cases accepted
      exact .inl ⟨address,rfl,rfl⟩
  | none =>
      rw [read] at accepted
      cases built : HostName.new value with
      | error =>
          rw [built] at accepted
          cases accepted
      | ok name =>
          rw [built] at accepted
          cases accepted
          exact .inr ⟨name,rfl,rfl,HostName.new_ok.mp built⟩

theorem host_survives {std : StdNet} (documented : std.Documented) {value : String} {host : TargetHost}
    (accepted : TargetHost.parse std.parseIp value = .ok host) :
    (TargetHost.parse std.parseIp host.asHostText = .ok host ↔ ¬ Disguised std.parseIp value) ∧
      (TargetHost.ofJson std.parseIp host.json = some host ↔ ¬ Disguised std.parseIp value) := by
  rcases TargetHost.parse_ok accepted with ⟨address,rfl,literal⟩ | ⟨name,rfl,plain,written⟩
  · have open_ : ¬ Disguised std.parseIp value := by
      intro disguised
      rw [Disguised,literal] at disguised
      cases disguised.1
    have again := documented.address address
    have unbracketed := stripBrackets_plain (head_ne (format_unbracketed address))
    refine ⟨iff_of_true ?_ open_,iff_of_true ?_ open_⟩
    · unfold TargetHost.parse TargetHost.asHostText
      rw [unbracketed,again]
    · unfold TargetHost.ofJson TargetHost.json TargetHost.asHostText
      dsimp only
      rw [again]
  · have hidden : ¬ Disguised std.parseIp value ↔ std.parseIp name.text = none := by
      rw [Disguised,← written,not_and,not_not]
      exact ⟨fun shown => shown plain,fun none _ => none⟩
    rw [hidden]
    exact ⟨TargetHost.parse_name std.parseIp name,TargetHost.ofJson_name std.parseIp name⟩

theorem toList_joined (host port : String) : (host ++ ":" ++ port).toList = host.toList ++ ':' :: port.toList := by
  simp

theorem joined_unique {host port other rest : String} (same : host ++ ":" ++ port = other ++ ":" ++ rest)
    (free : ':' ∉ port.toList) (also : ':' ∉ rest.toList) : host = other ∧ port = rest := by
  have lists := congrArg String.toList same
  rw [toList_joined,toList_joined] at lists
  have parts := congrArg (rsplitOnce ':') lists
  rw [rsplitOnce_join ':' _ _ free,rsplitOnce_join ':' _ _ also] at parts
  obtain ⟨hosts,ports⟩ := Prod.mk.inj (Option.some.inj parts)
  exact ⟨String.toList_inj.mp hosts,String.toList_inj.mp ports⟩

theorem Port.new_value (port : Port) : Port.new port.value = .ok port := by
  unfold Port.new
  rw [dif_pos port.range]

theorem Port.text_digits (port : Port) : ∀ character ∈ port.text.toList, character.isDigit = true := by
  intro character member
  rw [Port.text,String.toList_ofList] at member
  exact Nat.isDigit_of_mem_toDigits (by decide) (by decide) member

theorem Port.text_colonless (port : Port) : ':' ∉ port.text.toList :=
  fun inside => absurd (port.text_digits ':' inside) (by decide)

theorem parseU16_text (port : Port) : parseU16 port.text.toList = some port.value := by
  have digits := port.text_digits
  have value : Nat.ofDigitChars 10 port.text.toList 0 = port.value := by
    rw [Port.text,String.toList_ofList,Nat.ofDigitChars_ten_toDigits]
  have present : port.text.toList ≠ [] := by
    rw [Port.text,String.toList_ofList]
    exact Nat.toDigits_ne_nil
  have unsigned : port.text.toList.head? ≠ some '+' :=
    fun first => absurd (digits '+' (List.mem_of_head? first)) (by decide)
  have decimal : ¬ (port.text.toList.isEmpty || !port.text.toList.all Char.isDigit) = true := by
    simp only [Bool.or_eq_true,List.isEmpty_iff,Bool.not_eq_true',not_or,Bool.not_eq_false,List.all_eq_true]
    exact ⟨present,digits⟩
  unfold parseU16
  dsimp only
  rw [if_neg unsigned,if_neg decimal,value,if_pos port.range.2]

theorem UpstreamEndpoint.fromStr_ok {std : StdNet} {value : String} {endpoint : UpstreamEndpoint}
    (accepted : UpstreamEndpoint.fromStr std value = .ok endpoint) :
    (∃ address port, std.parseSocket value = some (address,port) ∧ endpoint.host = .ip address) ∨
      (std.parseSocket value = none ∧ ∃ host port, value = host ++ ":" ++ port ∧ ':' ∉ port.toList ∧
        TargetHost.parse std.parseIp host = .ok endpoint.host) := by
  unfold UpstreamEndpoint.fromStr at accepted
  split at accepted
  · rename_i address port socket
    cases numbered : Port.new port with
    | error =>
        rw [numbered] at accepted
        cases accepted
    | ok =>
        rw [numbered] at accepted
        cases accepted
        exact .inl ⟨address,port,socket,rfl⟩
  · rename_i unaddressed
    split at accepted
    · cases accepted
    · rename_i host port cut
      obtain ⟨whole,free⟩ := rsplitOnce_some cut
      split at accepted
      · cases accepted
      · rename_i number read
        cases parsed : TargetHost.parse std.parseIp (String.ofList host) with
        | error =>
            rw [parsed] at accepted
            cases accepted
        | ok =>
            rw [parsed] at accepted
            cases numbered : Port.new number with
            | error =>
                rw [numbered] at accepted
                cases accepted
            | ok =>
                rw [numbered] at accepted
                cases accepted
                refine .inr ⟨unaddressed,String.ofList host,String.ofList port,?_,?_,parsed⟩
                · apply String.toList_inj.mp
                  rw [toList_joined,whole,String.toList_ofList,String.toList_ofList]
                · rwa [String.toList_ofList]

theorem UpstreamEndpoint.fromStr_ip {std : StdNet} (documented : std.Documented) (address : IpAddr) (port : Port) :
    UpstreamEndpoint.fromStr std (UpstreamEndpoint.text ⟨.ip address,port⟩) = .ok ⟨.ip address,port⟩ := by
  have read (text : String) (socket : std.parseSocket text = some (address,port.value)) :
      UpstreamEndpoint.fromStr std text = .ok ⟨.ip address,port⟩ := by
    unfold UpstreamEndpoint.fromStr
    rw [socket]
    dsimp only
    rw [port.new_value]
    rfl
  cases address with
  | v4 a b c d => exact read _ (documented.socketV4 a b c d port)
  | v6 segments eight => exact read _ (documented.socketV6 segments eight port)

theorem UpstreamEndpoint.fromStr_joined (std : StdNet) (host : String) (port : Port)
    (unaddressed : std.parseSocket (host ++ ":" ++ port.text) = none) :
    UpstreamEndpoint.fromStr std (host ++ ":" ++ port.text) =
      (TargetHost.parse std.parseIp host).map (fun host => ⟨host,port⟩) := by
  unfold UpstreamEndpoint.fromStr
  rw [unaddressed]
  dsimp only
  rw [toList_joined,rsplitOnce_join ':' _ _ port.text_colonless]
  dsimp only
  rw [parseU16_text]
  dsimp only
  rw [String.ofList_toList,port.new_value]
  cases TargetHost.parse std.parseIp host with
  | error | ok => rfl

theorem UpstreamEndpoint.fromStr_name {std : StdNet} (documented : std.Documented) (name : HostName) (port : Port) :
    UpstreamEndpoint.fromStr std (name.text ++ ":" ++ port.text) = .ok ⟨.name name,port⟩ ↔
      std.parseIp name.text = none := by
  have read (unaddressed : std.parseSocket (name.text ++ ":" ++ port.text) = none) :
      UpstreamEndpoint.fromStr std (name.text ++ ":" ++ port.text) = .ok ⟨.name name,port⟩ ↔
        std.parseIp name.text = none := by
    rw [fromStr_joined std name.text port unaddressed,← TargetHost.parse_name]
    cases TargetHost.parse std.parseIp name.text with
    | error => exact ⟨(fun same => by cases same),(fun same => by cases same)⟩
    | ok => simp [Except.map]
  cases socket : std.parseSocket (name.text ++ ":" ++ port.text) with
  | none => exact read socket
  | some found =>
      obtain ⟨address,number⟩ := found
      -- The text reads as a socket address, so the name in it reads as an address.
      have literal : std.parseIp name.text = some address := by
        rcases documented.socket _ _ _ socket with bracket | ⟨host,digits,same,free,literal⟩
        · have first := List.mem_of_head? bracket
          rw [toList_joined,List.mem_append,List.mem_cons] at first
          rcases first with inside | colon | digit
          · exact absurd inside name.unbracketed
          · exact absurd colon (by decide)
          · exact absurd (port.text_digits '[' digit) (by decide)
        · obtain ⟨rfl,_⟩ := joined_unique same port.text_colonless free
          exact literal
      constructor
      · intro again
        rcases fromStr_ok again with ⟨other,_,_,ip⟩ | ⟨none,_⟩
        · cases ip
        · rw [socket] at none
          cases none
      · intro none
        rw [literal] at none
        cases none

theorem endpoint_survives {std : StdNet} (documented : std.Documented) {value : String} {endpoint : UpstreamEndpoint}
    (accepted : UpstreamEndpoint.fromStr std value = .ok endpoint) :
    UpstreamEndpoint.fromStr std endpoint.text = .ok endpoint ↔ ¬ DisguisedHost std value := by
  obtain ⟨host,port⟩ := endpoint
  have numeric (address : IpAddr) (ip : host = .ip address) (shown : ¬ DisguisedHost std value) :
      UpstreamEndpoint.fromStr std (UpstreamEndpoint.text ⟨host,port⟩) = .ok ⟨host,port⟩ ↔ ¬ DisguisedHost std value := by
    subst ip
    exact iff_of_true (UpstreamEndpoint.fromStr_ip documented address port) shown
  rcases UpstreamEndpoint.fromStr_ok accepted with ⟨address,_,socket,ip⟩ | ⟨unaddressed,text,digits,whole,free,parsed⟩
  · apply numeric address ip
    intro disguised
    have none := disguised.unaddressed
    rw [socket] at none
    cases none
  · have same : DisguisedHost std value ↔ Disguised std.parseIp text := by
      constructor
      · intro disguised
        obtain ⟨other,rest,also,apart,hidden⟩ := disguised.disguised
        obtain ⟨rfl,_⟩ := joined_unique (whole.symm.trans also) free apart
        exact hidden
      · intro hidden
        exact ⟨unaddressed,text,digits,whole,free,hidden⟩
    rcases TargetHost.parse_ok parsed with ⟨address,ip,literal⟩ | ⟨name,named,plain,written⟩
    · apply numeric address ip
      rw [same,Disguised,literal]
      intro disguised
      cases disguised.1
    · dsimp only at named
      subst named
      have survives := (host_survives documented parsed).1
      rw [TargetHost.asHostText,TargetHost.parse_name] at survives
      rw [same,← survives]
      exact UpstreamEndpoint.fromStr_name documented name port

theorem hosts_survive_undisguised (std : StdNet) (documented : std.Documented) :
    (∀ value host, TargetHost.parse std.parseIp value = .ok host →
      ((TargetHost.parse std.parseIp host.asHostText = .ok host ∧ TargetHost.ofJson std.parseIp host.json = some host) ↔
        ¬ Disguised std.parseIp value)) ∧
      ∀ value endpoint, UpstreamEndpoint.fromStr std value = .ok endpoint →
        (UpstreamEndpoint.fromStr std endpoint.text = .ok endpoint ↔ ¬ DisguisedHost std value) := by
  refine ⟨?_,fun value endpoint accepted => endpoint_survives documented accepted⟩
  intro value host accepted
  obtain ⟨text,json⟩ := host_survives documented accepted
  rw [text,json]
  exact and_self_iff

-- A reader of socket addresses built on the reader of addresses: the longer
-- addresses stand in brackets, the shorter ones do not.
def socketOf (host : List Char) (port : Nat) : Option IpAddr → Option (IpAddr × Nat)
  | some (.v4 a b c d) => if host.head? = some '[' then none else some (.v4 a b c d,port)
  | some (.v6 segments eight) => if host.head? = some '[' then some (.v6 segments eight,port) else none
  | none => none

def readSocket (text : String) : Option (IpAddr × Nat) :=
  (rsplitOnce ':' text.toList).bind fun cut => (parseU16 cut.2).bind fun port =>
    socketOf cut.1 port (read (stripBrackets (String.ofList cut.1)))

def readStd : StdNet := ⟨read,readSocket⟩

theorem readSocket_joined (host : String) (port : Port) :
    readSocket (host ++ ":" ++ port.text) = socketOf host.toList port.value (read (stripBrackets host)) := by
  unfold readSocket
  rw [toList_joined,rsplitOnce_join ':' _ _ port.text_colonless,Option.bind_some,parseU16_text,Option.bind_some,
    String.ofList_toList]

theorem stripBrackets_bracketed (text : String) : stripBrackets ("[" ++ text ++ "]") = text := by
  have written : ("[" ++ text ++ "]").toList = '[' :: (text.toList ++ [']']) := by simp
  unfold stripBrackets
  rw [written]
  simp

theorem readStd_documented : readStd.Documented := by
  refine ⟨read_format,?_,?_,?_⟩
  · intro a b c d port
    have plain := head_ne (format_unbracketed (.v4 a b c d))
    change readSocket _ = _
    rw [readSocket_joined,stripBrackets_plain plain,read_format]
    exact if_neg plain
  · intro segments eight port
    have written : "[" ++ format (.v6 segments eight) ++ "]:" ++ port.text =
        ("[" ++ format (.v6 segments eight) ++ "]") ++ ":" ++ port.text := by
      apply String.toList_inj.mp
      simp
    have bracketed : ("[" ++ format (.v6 segments eight) ++ "]").toList.head? = some '[' := by simp
    change readSocket _ = _
    rw [written,readSocket_joined,stripBrackets_bracketed,read_format]
    exact if_pos bracketed
  · intro text address port found
    obtain ⟨cut,split,found⟩ := Option.bind_eq_some_iff.mp found
    obtain ⟨number,_,found⟩ := Option.bind_eq_some_iff.mp found
    obtain ⟨whole,free⟩ := rsplitOnce_some split
    cases parsed : read (stripBrackets (String.ofList cut.1)) with
    | none =>
        rw [parsed] at found
        cases found
    | some literal =>
        rw [parsed] at found
        by_cases bracket : cut.1.head? = some '['
        · left
          rw [whole]
          cases front : cut.1 with
          | nil =>
              rw [front] at bracket
              cases bracket
          | cons =>
              rw [front] at bracket
              exact bracket
        · right
          cases literal with
          | v6 =>
              simp only [socketOf,if_neg bracket] at found
              cases found
          | v4 =>
              simp only [socketOf,if_neg bracket] at found
              cases found
              refine ⟨String.ofList cut.1,String.ofList cut.2,?_,?_,?_⟩
              · apply String.toList_inj.mp
                rw [toList_joined,whole,String.toList_ofList,String.toList_ofList]
              · rwa [String.toList_ofList]
              · rw [stripBrackets_plain (by rwa [String.toList_ofList])] at parsed
                exact parsed

-- A name that is an address but for its root dot.
def numericName : HostName := ⟨"1.2.3.4",by decide,by decide⟩

theorem numericName_turns :
    TargetHost.parse read "1.2.3.4." = .ok (.name numericName) ∧
      TargetHost.parse read (TargetHost.name numericName).asHostText = .ok (.ip (.v4 1 2 3 4)) ∧
      TargetHost.ofJson read (TargetHost.name numericName).json = some (.ip (.v4 1 2 3 4)) ∧
      UpstreamEndpoint.fromStr readStd "1.2.3.4.:80" = .ok ⟨.name numericName,⟨80,Port.http⟩⟩ ∧
      UpstreamEndpoint.fromStr readStd (UpstreamEndpoint.text ⟨.name numericName,⟨80,Port.http⟩⟩) =
        .ok ⟨.ip (.v4 1 2 3 4),⟨80,Port.http⟩⟩ := by
  decide +kernel

def plainName : HostName := ⟨"a.test",by decide,by decide⟩

theorem plainName_shown : ¬ Disguised readStd.parseIp "A.test." := by
  have none : readStd.parseIp (lowercase (stripRootDot "A.test.")) = none := by decide +kernel
  exact fun disguised => disguised.2 none

theorem plainName_survives :
    (TargetHost.parse read "A.test." = .ok (.name plainName) ∧
      TargetHost.parse read (TargetHost.name plainName).asHostText = .ok (.name plainName) ∧
      TargetHost.ofJson read (TargetHost.name plainName).json = some (.name plainName)) ∧
      UpstreamEndpoint.fromStr readStd "[::1]:80" = .ok ⟨.ip (.ofSegments 0 0 0 0 0 0 0 1),⟨80,Port.http⟩⟩ ∧
      UpstreamEndpoint.fromStr readStd (UpstreamEndpoint.text ⟨.ip (.ofSegments 0 0 0 0 0 0 0 1),⟨80,Port.http⟩⟩) =
        .ok ⟨.ip (.ofSegments 0 0 0 0 0 0 0 1),⟨80,Port.http⟩⟩ := by
  obtain ⟨hosts,endpoints⟩ := hosts_survive_undisguised readStd readStd_documented
  have accepted : TargetHost.parse readStd.parseIp "A.test." = .ok (.name plainName) := by decide +kernel
  have socket : readStd.parseSocket "[::1]:80" = some (.ofSegments 0 0 0 0 0 0 0 1,80) := by decide +kernel
  have taken : UpstreamEndpoint.fromStr readStd "[::1]:80" = .ok ⟨.ip (.ofSegments 0 0 0 0 0 0 0 1),⟨80,Port.http⟩⟩ := by
    decide +kernel
  have shown : ¬ DisguisedHost readStd "[::1]:80" := by
    intro disguised
    have none := disguised.unaddressed
    rw [socket] at none
    cases none
  obtain ⟨text,json⟩ := (hosts _ _ accepted).mpr plainName_shown
  exact ⟨⟨accepted,text,json⟩,taken,(endpoints _ _ taken).mpr shown⟩

end Freja.Domain
