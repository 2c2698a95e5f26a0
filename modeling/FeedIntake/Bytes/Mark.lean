/-!
The punctuation that the formats of this library are built with, by name. Each is an abbreviation,
so that patterns, proofs and compiled code all see the plain byte.
-/
namespace FeedIntake.Mark

@[match_pattern] abbrev tab : UInt8 := 0x09
@[match_pattern] abbrev lineFeed : UInt8 := 0x0A
@[match_pattern] abbrev carriageReturn : UInt8 := 0x0D
@[match_pattern] abbrev space : UInt8 := 0x20
@[match_pattern] abbrev doubleQuote : UInt8 := 0x22
@[match_pattern] abbrev hash : UInt8 := 0x23
@[match_pattern] abbrev percent : UInt8 := 0x25
@[match_pattern] abbrev ampersand : UInt8 := 0x26
@[match_pattern] abbrev singleQuote : UInt8 := 0x27
@[match_pattern] abbrev plus : UInt8 := 0x2B
@[match_pattern] abbrev comma : UInt8 := 0x2C
@[match_pattern] abbrev hyphen : UInt8 := 0x2D
@[match_pattern] abbrev dot : UInt8 := 0x2E
@[match_pattern] abbrev slash : UInt8 := 0x2F
@[match_pattern] abbrev zero : UInt8 := 0x30
@[match_pattern] abbrev colon : UInt8 := 0x3A
@[match_pattern] abbrev semicolon : UInt8 := 0x3B
@[match_pattern] abbrev less : UInt8 := 0x3C
@[match_pattern] abbrev equal : UInt8 := 0x3D
@[match_pattern] abbrev greater : UInt8 := 0x3E
@[match_pattern] abbrev question : UInt8 := 0x3F
@[match_pattern] abbrev atSign : UInt8 := 0x40
@[match_pattern] abbrev openBracket : UInt8 := 0x5B
@[match_pattern] abbrev backslash : UInt8 := 0x5C
@[match_pattern] abbrev closeBracket : UInt8 := 0x5D
@[match_pattern] abbrev underscore : UInt8 := 0x5F
@[match_pattern] abbrev openBrace : UInt8 := 0x7B
@[match_pattern] abbrev bar : UInt8 := 0x7C
@[match_pattern] abbrev closeBrace : UInt8 := 0x7D

end FeedIntake.Mark
