import ChangeFeed.Json.Basic
import ChangeFeed.Text.Hex

namespace ChangeFeed.Json

def escape (c : Char) : List Char :=
  if c = '"' then ['\\', '"']
  else if c = '\\' then ['\\', '\\']
  else if c = '\x08' then ['\\', 'b']
  else if c = '\x0c' then ['\\', 'f']
  else if c = '\n' then ['\\', 'n']
  else if c = '\r' then ['\\', 'r']
  else if c = '\t' then ['\\', 't']
  else if c.toNat < 32 then '\\' :: 'u' :: Text.hexDigits 4 c.toNat
  else [c]

def quote (s : String) : List Char := '"' :: s.toList.flatMap escape ++ ['"']

mutual

def render : Data → List Char
  | .null => ['n', 'u', 'l', 'l']
  | .bool true => ['t', 'r', 'u', 'e']
  | .bool false => ['f', 'a', 'l', 's', 'e']
  | .int n => Data.intText n
  | .text s => quote s
  | .list [] => ['[', ']']
  | .list (d :: rest) => '[' :: render d ++ renderItems rest
  | .record [] => ['\x7b', '\x7d']
  | .record ((name, d) :: rest) => '\x7b' :: quote name ++ ':' :: render d ++ renderMembers rest

def renderItems : List Data → List Char
  | [] => [']']
  | d :: rest => ',' :: render d ++ renderItems rest

def renderMembers : List (String × Data) → List Char
  | [] => ['\x7d']
  | (name, d) :: rest => ',' :: quote name ++ ':' :: render d ++ renderMembers rest

end

def print (d : Data) : String := String.ofList (render d)

end ChangeFeed.Json
