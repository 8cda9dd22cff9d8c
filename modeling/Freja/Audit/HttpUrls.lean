import Freja.Audit.SecretQueries
import Freja.Foundation.Splitting

namespace Freja.Audit
open Bytes Splitting

-- What the URL crate makes of URLs of the scheme http, where a backslash counts as a
-- slash and the last @ of the authority ends the user information, and of texts without
-- slashes. Hosts and paths are kept as they are written.
structure HttpFront where
  start : List Char
  user : List Char
  password : List Char
  place : List Char

namespace HttpFront

def isScheme (name : List Char) : Bool :=
  name.head?.any Char.isAlpha && name.all (fun character => character.isAlphanum || "+-.".toList.contains character)

def isSlash (character : Char) : Bool := character == '/' || character == '\\'

def hostFits (host : List Char) : Bool :=
  match rsplitOnce ':' host with
  | none => !host.isEmpty
  | some (name,port) => !name.isEmpty && port.all Char.isDigit && Nat.ofDigitChars 10 port 0 ≤ 65535

def readAuthority (text : List Char) : Option HttpFront :=
  let authority := text.takeWhile (!isSlash ·)
  let path := text.dropWhile (!isSlash ·)
  let (info,host) := (rsplitOnce '@' authority).getD ([],authority)
  if hostFits host then
    some ⟨"http://".toList,info.takeWhile (· != ':'),(info.dropWhile (· != ':')).tail,
      host ++ if path.isEmpty then ['/'] else path⟩
  else none

def read (text : String) : Option HttpFront :=
  match splitOnce ':' text with
  | none => none
  | some (name,rest) =>
      if !isScheme name.toList then none
      else if lowercase name = "http" && startsWith rest "//" then readAuthority (rest.toList.drop 2)
      else if rest.toList.contains '/' then none
      else some ⟨[],[],[],text.toList⟩

def encodeUser (text : List Char) : List Char :=
  text.flatMap fun character =>
    if "\"#<>?`\x7b\x7d/:;=@[\\]^|".toList.contains character || 126 < character.toNat then
      (Redactor.queryText ((utf8 character.toString).flatMap FormUrlencoded.encodeByte)).toList
    else [character]

def userinfo (front : HttpFront) : List Char :=
  if front.user.isEmpty && front.password.isEmpty then []
  else encodeUser front.user ++ (if front.password.isEmpty then [] else ':' :: encodeUser front.password) ++ ['@']

def text (front : HttpFront) : String := String.ofList (front.start ++ front.userinfo ++ front.place)

end HttpFront

def httpUrls : UrlCrate where
  Front := HttpFront
  parseFront := HttpFront.read
  username := fun front => String.ofList front.user
  password := fun front => if front.password.isEmpty then none else some (String.ofList front.password)
  setUsername := fun front name => if front.start.isEmpty then none else some {front with user := name.toList}
  setPassword := fun front password =>
    if front.start.isEmpty then none else some {front with password := (password.getD "").toList}
  normalizeQuery := id
  write := fun front query fragment =>
    withQuery front.text (query.map Redactor.queryText) ++ (fragment.map ("#" ++ ·)).getD ""

theorem httpUrls_keeps : httpUrls.KeepsQueries := ⟨fun _ _ => rfl⟩

end Freja.Audit
