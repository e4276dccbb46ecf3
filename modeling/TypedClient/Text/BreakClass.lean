import TypedClient.Text.CodeSet

/-! # Line breaking classes

The Unicode property `Line_Break`, which says how a character takes part in line breaking. Classes
that a program has to resolve are resolved: characters of unknown or ambiguous class are letters,
South East Asian marks are combining marks, and conditional starters do not begin a line.
-/

namespace TypedClient.Text

inductive BreakClass where
  /-- A line ends after it in any case. -/
  | lineEnd
  | carriageReturn
  | lineFeed
  | blank
  /-- A blank of no width. -/
  | zeroBlank
  /-- A combining mark. -/
  | combining
  /-- A mark that joins emoji. -/
  | joiner
  | wordJoiner
  /-- No line ends on either side. -/
  | glue
  | breakAfter
  | breakBefore
  | breakBoth
  | hyphen
  /-- Stands for an object within the text. -/
  | object
  | opening
  /-- An opening bracket of East Asian width. -/
  | wideOpening
  /-- A closing mark other than a parenthesis or square bracket. -/
  | closing
  | closingBracket
  | quotation
  | exclamation
  | inseparable
  /-- Does not begin a line. -/
  | nonstarter
  /-- Stands between the digits of a number. -/
  | separator
  | slash
  | digit
  /-- Stands before a number, as the sign of a currency. -/
  | unitBefore
  /-- Stands after a number, as the percent sign. -/
  | unitAfter
  | letter
  | hebrew
  | ideograph
  | emojiBase
  | emojiModifier
  /-- A letter of a flag. -/
  | regional
  | leadingJamo
  | vowelJamo
  | trailingJamo
  /-- A Hangul syllable that ends in a vowel. -/
  | openSyllable
  | closedSyllable
  deriving DecidableEq, Repr

namespace BreakClass

def marks : CodeSet where
  bounds := #[
    0x0, 0x9, 0xe, 0x20, 0x7f, 0x85, 0x86, 0xa0, 0x300, 0x34f, 0x350, 0x35c, 0x363, 0x370, 0x483,
    0x48a, 0x591, 0x5be, 0x5bf, 0x5c0, 0x5c1, 0x5c3, 0x5c4, 0x5c6, 0x5c7, 0x5c8, 0x610, 0x61b,
    0x61c, 0x61d, 0x64b, 0x660, 0x670, 0x671, 0x6d6, 0x6dd, 0x6df, 0x6e5, 0x6e7, 0x6e9, 0x6ea,
    0x6ee, 0x711, 0x712, 0x730, 0x74b, 0x7a6, 0x7b1, 0x7eb, 0x7f4, 0x7fd, 0x7fe, 0x816, 0x81a,
    0x81b, 0x824, 0x825, 0x828, 0x829, 0x82e, 0x859, 0x85c, 0x898, 0x8a0, 0x8ca, 0x8e2, 0x8e3,
    0x904, 0x93a, 0x93d, 0x93e, 0x950, 0x951, 0x958, 0x962, 0x964, 0x981, 0x984, 0x9bc, 0x9bd,
    0x9be, 0x9c5, 0x9c7, 0x9c9, 0x9cb, 0x9ce, 0x9d7, 0x9d8, 0x9e2, 0x9e4, 0x9fe, 0x9ff, 0xa01,
    0xa04, 0xa3c, 0xa3d, 0xa3e, 0xa43, 0xa47, 0xa49, 0xa4b, 0xa4e, 0xa51, 0xa52, 0xa70, 0xa72,
    0xa75, 0xa76, 0xa81, 0xa84, 0xabc, 0xabd, 0xabe, 0xac6, 0xac7, 0xaca, 0xacb, 0xace, 0xae2,
    0xae4, 0xafa, 0xb00, 0xb01, 0xb04, 0xb3c, 0xb3d, 0xb3e, 0xb45, 0xb47, 0xb49, 0xb4b, 0xb4e,
    0xb55, 0xb58, 0xb62, 0xb64, 0xb82, 0xb83, 0xbbe, 0xbc3, 0xbc6, 0xbc9, 0xbca, 0xbce, 0xbd7,
    0xbd8, 0xc00, 0xc05, 0xc3c, 0xc3d, 0xc3e, 0xc45, 0xc46, 0xc49, 0xc4a, 0xc4e, 0xc55, 0xc57,
    0xc62, 0xc64, 0xc81, 0xc84, 0xcbc, 0xcbd, 0xcbe, 0xcc5, 0xcc6, 0xcc9, 0xcca, 0xcce, 0xcd5,
    0xcd7, 0xce2, 0xce4, 0xcf3, 0xcf4, 0xd00, 0xd04, 0xd3b, 0xd3d, 0xd3e, 0xd45, 0xd46, 0xd49,
    0xd4a, 0xd4e, 0xd57, 0xd58, 0xd62, 0xd64, 0xd81, 0xd84, 0xdca, 0xdcb, 0xdcf, 0xdd5, 0xdd6,
    0xdd7, 0xdd8, 0xde0, 0xdf2, 0xdf4, 0xe31, 0xe32, 0xe34, 0xe3b, 0xe47, 0xe4f, 0xeb1, 0xeb2,
    0xeb4, 0xebd, 0xec8, 0xecf, 0xf18, 0xf1a, 0xf35, 0xf36, 0xf37, 0xf38, 0xf39, 0xf3a, 0xf3e,
    0xf40, 0xf71, 0xf7f, 0xf80, 0xf85, 0xf86, 0xf88, 0xf8d, 0xf98, 0xf99, 0xfbd, 0xfc6, 0xfc7,
    0x102b, 0x103f, 0x1056, 0x105a, 0x105e, 0x1061, 0x1062, 0x1065, 0x1067, 0x106e, 0x1071, 0x1075,
    0x1082, 0x108e, 0x108f, 0x1090, 0x109a, 0x109e, 0x135d, 0x1360, 0x1712, 0x1716, 0x1732, 0x1735,
    0x1752, 0x1754, 0x1772, 0x1774, 0x17b4, 0x17d4, 0x17dd, 0x17de, 0x180b, 0x180e, 0x180f, 0x1810,
    0x1885, 0x1887, 0x18a9, 0x18aa, 0x1920, 0x192c, 0x1930, 0x193c, 0x1a17, 0x1a1c, 0x1a55, 0x1a5f,
    0x1a60, 0x1a7d, 0x1a7f, 0x1a80, 0x1ab0, 0x1acf, 0x1b00, 0x1b05, 0x1b34, 0x1b45, 0x1b6b, 0x1b74,
    0x1b80, 0x1b83, 0x1ba1, 0x1bae, 0x1be6, 0x1bf4, 0x1c24, 0x1c38, 0x1cd0, 0x1cd3, 0x1cd4, 0x1ce9,
    0x1ced, 0x1cee, 0x1cf4, 0x1cf5, 0x1cf7, 0x1cfa, 0x1dc0, 0x1dcd, 0x1dce, 0x1dfc, 0x1dfd, 0x1e00,
    0x200c, 0x200d, 0x200e, 0x2010, 0x202a, 0x202f, 0x2066, 0x2070, 0x20d0, 0x20f1, 0x2cef, 0x2cf2,
    0x2d7f, 0x2d80, 0x2de0, 0x2e00, 0x302a, 0x3030, 0x3035, 0x3036, 0x3099, 0x309b, 0xa66f, 0xa673,
    0xa674, 0xa67e, 0xa69e, 0xa6a0, 0xa6f0, 0xa6f2, 0xa802, 0xa803, 0xa806, 0xa807, 0xa80b, 0xa80c,
    0xa823, 0xa828, 0xa82c, 0xa82d, 0xa880, 0xa882, 0xa8b4, 0xa8c6, 0xa8e0, 0xa8f2, 0xa8ff, 0xa900,
    0xa926, 0xa92e, 0xa947, 0xa954, 0xa980, 0xa984, 0xa9b3, 0xa9c1, 0xa9e5, 0xa9e6, 0xaa29, 0xaa37,
    0xaa43, 0xaa44, 0xaa4c, 0xaa4e, 0xaa7b, 0xaa7e, 0xaab0, 0xaab1, 0xaab2, 0xaab5, 0xaab7, 0xaab9,
    0xaabe, 0xaac0, 0xaac1, 0xaac2, 0xaaeb, 0xaaf0, 0xaaf5, 0xaaf7, 0xabe3, 0xabeb, 0xabec, 0xabee,
    0xfb1e, 0xfb1f, 0xfe00, 0xfe10, 0xfe20, 0xfe30, 0xfff9, 0xfffc, 0x101fd, 0x101fe, 0x102e0,
    0x102e1, 0x10376, 0x1037b, 0x10a01, 0x10a04, 0x10a05, 0x10a07, 0x10a0c, 0x10a10, 0x10a38,
    0x10a3b, 0x10a3f, 0x10a40, 0x10ae5, 0x10ae7, 0x10d24, 0x10d28, 0x10eab, 0x10ead, 0x10efd,
    0x10f00, 0x10f46, 0x10f51, 0x10f82, 0x10f86, 0x11000, 0x11003, 0x11038, 0x11047, 0x11070,
    0x11071, 0x11073, 0x11075, 0x1107f, 0x11083, 0x110b0, 0x110bb, 0x110c2, 0x110c3, 0x11100,
    0x11103, 0x11127, 0x11135, 0x11145, 0x11147, 0x11173, 0x11174, 0x11180, 0x11183, 0x111b3,
    0x111c1, 0x111c9, 0x111cd, 0x111ce, 0x111d0, 0x1122c, 0x11238, 0x1123e, 0x1123f, 0x11241,
    0x11242, 0x112df, 0x112eb, 0x11300, 0x11304, 0x1133b, 0x1133d, 0x1133e, 0x11345, 0x11347,
    0x11349, 0x1134b, 0x1134e, 0x11357, 0x11358, 0x11362, 0x11364, 0x11366, 0x1136d, 0x11370,
    0x11375, 0x11435, 0x11447, 0x1145e, 0x1145f, 0x114b0, 0x114c4, 0x115af, 0x115b6, 0x115b8,
    0x115c1, 0x115dc, 0x115de, 0x11630, 0x11641, 0x116ab, 0x116b8, 0x1171d, 0x1172c, 0x1182c,
    0x1183b, 0x11930, 0x11936, 0x11937, 0x11939, 0x1193b, 0x1193f, 0x11940, 0x11941, 0x11942,
    0x11944, 0x119d1, 0x119d8, 0x119da, 0x119e1, 0x119e4, 0x119e5, 0x11a01, 0x11a0b, 0x11a33,
    0x11a3a, 0x11a3b, 0x11a3f, 0x11a47, 0x11a48, 0x11a51, 0x11a5c, 0x11a8a, 0x11a9a, 0x11c2f,
    0x11c37, 0x11c38, 0x11c40, 0x11c92, 0x11ca8, 0x11ca9, 0x11cb7, 0x11d31, 0x11d37, 0x11d3a,
    0x11d3b, 0x11d3c, 0x11d3e, 0x11d3f, 0x11d46, 0x11d47, 0x11d48, 0x11d8a, 0x11d8f, 0x11d90,
    0x11d92, 0x11d93, 0x11d98, 0x11ef3, 0x11ef7, 0x11f00, 0x11f02, 0x11f03, 0x11f04, 0x11f34,
    0x11f3b, 0x11f3e, 0x11f43, 0x13440, 0x13441, 0x13447, 0x13456, 0x16af0, 0x16af5, 0x16b30,
    0x16b37, 0x16f4f, 0x16f50, 0x16f51, 0x16f88, 0x16f8f, 0x16f93, 0x16ff0, 0x16ff2, 0x1bc9d,
    0x1bc9f, 0x1bca0, 0x1bca4, 0x1cf00, 0x1cf2e, 0x1cf30, 0x1cf47, 0x1d165, 0x1d16a, 0x1d16d,
    0x1d183, 0x1d185, 0x1d18c, 0x1d1aa, 0x1d1ae, 0x1d242, 0x1d245, 0x1da00, 0x1da37, 0x1da3b,
    0x1da6d, 0x1da75, 0x1da76, 0x1da84, 0x1da85, 0x1da9b, 0x1daa0, 0x1daa1, 0x1dab0, 0x1e000,
    0x1e007, 0x1e008, 0x1e019, 0x1e01b, 0x1e022, 0x1e023, 0x1e025, 0x1e026, 0x1e02b, 0x1e08f,
    0x1e090, 0x1e130, 0x1e137, 0x1e2ae, 0x1e2af, 0x1e2ec, 0x1e2f0, 0x1e4ec, 0x1e4f0, 0x1e8d0,
    0x1e8d7, 0x1e944, 0x1e94b, 0xe0001, 0xe0002, 0xe0020, 0xe0080, 0xe0100, 0xe01f0]

def ideographs : CodeSet where
  bounds := #[
    0x231a, 0x231c, 0x23f0, 0x23f4, 0x2600, 0x2604, 0x2614, 0x2616, 0x2618, 0x2619, 0x261a, 0x261d,
    0x261e, 0x2620, 0x2639, 0x263c, 0x2668, 0x2669, 0x267f, 0x2680, 0x26bd, 0x26c9, 0x26cd, 0x26ce,
    0x26cf, 0x26d2, 0x26d3, 0x26d5, 0x26d8, 0x26da, 0x26dc, 0x26dd, 0x26df, 0x26e2, 0x26ea, 0x26eb,
    0x26f1, 0x26f6, 0x26f7, 0x26f9, 0x26fa, 0x26fb, 0x26fd, 0x2705, 0x2708, 0x270a, 0x2764, 0x2765,
    0x2e80, 0x2e9a, 0x2e9b, 0x2ef4, 0x2f00, 0x2fd6, 0x2ff0, 0x2ffc, 0x3003, 0x3005, 0x3006, 0x3008,
    0x3012, 0x3014, 0x3020, 0x302a, 0x3030, 0x3035, 0x3036, 0x303b, 0x303d, 0x3040, 0x3042, 0x3043,
    0x3044, 0x3045, 0x3046, 0x3047, 0x3048, 0x3049, 0x304a, 0x3063, 0x3064, 0x3083, 0x3084, 0x3085,
    0x3086, 0x3087, 0x3088, 0x308e, 0x308f, 0x3095, 0x309f, 0x30a0, 0x30a2, 0x30a3, 0x30a4, 0x30a5,
    0x30a6, 0x30a7, 0x30a8, 0x30a9, 0x30aa, 0x30c3, 0x30c4, 0x30e3, 0x30e4, 0x30e5, 0x30e6, 0x30e7,
    0x30e8, 0x30ee, 0x30ef, 0x30f5, 0x30f7, 0x30fb, 0x30ff, 0x3100, 0x3105, 0x3130, 0x3131, 0x318f,
    0x3190, 0x31e4, 0x3200, 0x321f, 0x3220, 0x3248, 0x3250, 0x4dc0, 0x4e00, 0xa015, 0xa016, 0xa48d,
    0xa490, 0xa4c7, 0xf900, 0xfb00, 0xfe30, 0xfe35, 0xfe45, 0xfe47, 0xfe49, 0xfe50, 0xfe51, 0xfe52,
    0xfe58, 0xfe59, 0xfe5f, 0xfe67, 0xfe68, 0xfe69, 0xfe6b, 0xfe6c, 0xff02, 0xff04, 0xff06, 0xff08,
    0xff0a, 0xff0c, 0xff0d, 0xff0e, 0xff0f, 0xff1a, 0xff1c, 0xff1f, 0xff20, 0xff3b, 0xff3c, 0xff3d,
    0xff3e, 0xff5b, 0xff5c, 0xff5d, 0xff5e, 0xff5f, 0xff66, 0xff67, 0xff71, 0xff9e, 0xffa0, 0xffbf,
    0xffc2, 0xffc8, 0xffca, 0xffd0, 0xffd2, 0xffd8, 0xffda, 0xffdd, 0xffe2, 0xffe5, 0x11f45,
    0x11f50, 0x17000, 0x187f8, 0x18800, 0x18b00, 0x18d00, 0x18d09, 0x1b000, 0x1b123, 0x1b170,
    0x1b2fc, 0x1f000, 0x1f100, 0x1f10d, 0x1f110, 0x1f16d, 0x1f170, 0x1f1ad, 0x1f1e6, 0x1f200,
    0x1f385, 0x1f386, 0x1f39c, 0x1f39e, 0x1f3b5, 0x1f3b7, 0x1f3bc, 0x1f3bd, 0x1f3c2, 0x1f3c5,
    0x1f3c7, 0x1f3c8, 0x1f3ca, 0x1f3cd, 0x1f3fb, 0x1f400, 0x1f442, 0x1f444, 0x1f446, 0x1f451,
    0x1f466, 0x1f479, 0x1f47c, 0x1f47d, 0x1f481, 0x1f484, 0x1f485, 0x1f488, 0x1f48f, 0x1f490,
    0x1f491, 0x1f492, 0x1f4a0, 0x1f4a1, 0x1f4a2, 0x1f4a3, 0x1f4a4, 0x1f4a5, 0x1f4aa, 0x1f4ab,
    0x1f4af, 0x1f4b0, 0x1f4b1, 0x1f4b3, 0x1f500, 0x1f507, 0x1f517, 0x1f525, 0x1f532, 0x1f54a,
    0x1f574, 0x1f576, 0x1f57a, 0x1f57b, 0x1f590, 0x1f591, 0x1f595, 0x1f597, 0x1f5d4, 0x1f5dc,
    0x1f5f4, 0x1f5fa, 0x1f645, 0x1f648, 0x1f64b, 0x1f680, 0x1f6a3, 0x1f6a4, 0x1f6b4, 0x1f6b7,
    0x1f6c0, 0x1f6c1, 0x1f6cc, 0x1f6cd, 0x1f700, 0x1f774, 0x1f780, 0x1f7d5, 0x1f800, 0x1f80c,
    0x1f810, 0x1f848, 0x1f850, 0x1f85a, 0x1f860, 0x1f888, 0x1f890, 0x1f8ae, 0x1f900, 0x1f90d,
    0x1f90f, 0x1f910, 0x1f918, 0x1f920, 0x1f926, 0x1f927, 0x1f930, 0x1f93a, 0x1f93c, 0x1f93f,
    0x1f977, 0x1f978, 0x1f9b5, 0x1f9b7, 0x1f9b8, 0x1f9ba, 0x1f9bb, 0x1f9bc, 0x1f9cd, 0x1f9d0,
    0x1f9d1, 0x1f9de, 0x1fa00, 0x1fa54, 0x1fac3, 0x1fac6, 0x1faf0, 0x1faf9, 0x1fb00, 0x1fc00,
    0x1fffe, 0x20000, 0x2fffe, 0x30000, 0x3fffe]

def breaksAfter : CodeSet where
  bounds := #[
    0x9, 0xa, 0x7c, 0x7d, 0xad, 0xae, 0x58a, 0x58b, 0x5be, 0x5bf, 0x964, 0x966, 0xe5a, 0xe5c,
    0xf0b, 0xf0c, 0xf34, 0xf35, 0xf7f, 0xf80, 0xf85, 0xf86, 0xfbe, 0xfc0, 0xfd2, 0xfd3, 0x104a,
    0x104c, 0x1361, 0x1362, 0x1400, 0x1401, 0x1680, 0x1681, 0x16eb, 0x16ee, 0x1735, 0x1737, 0x17d4,
    0x17d6, 0x17d8, 0x17d9, 0x17da, 0x17db, 0x1804, 0x1806, 0x1b5a, 0x1b5c, 0x1b5d, 0x1b61, 0x1b7d,
    0x1b7f, 0x1c3b, 0x1c40, 0x1c7e, 0x1c80, 0x2000, 0x2007, 0x2008, 0x200b, 0x2010, 0x2011, 0x2012,
    0x2014, 0x2027, 0x2028, 0x2056, 0x2057, 0x2058, 0x205c, 0x205d, 0x2060, 0x2cfa, 0x2cfd, 0x2cff,
    0x2d00, 0x2d70, 0x2d71, 0x2e0e, 0x2e16, 0x2e17, 0x2e18, 0x2e19, 0x2e1a, 0x2e2a, 0x2e2e, 0x2e30,
    0x2e32, 0x2e33, 0x2e35, 0x2e3c, 0x2e3f, 0x2e40, 0x2e42, 0x2e43, 0x2e4b, 0x2e4c, 0x2e4d, 0x2e4e,
    0x2e50, 0x2e5d, 0x2e5e, 0x3000, 0x3001, 0xa4fe, 0xa500, 0xa60d, 0xa60e, 0xa60f, 0xa610, 0xa6f3,
    0xa6f8, 0xa8ce, 0xa8d0, 0xa92e, 0xa930, 0xa9c7, 0xa9ca, 0xaa5d, 0xaa60, 0xaaf0, 0xaaf2, 0xabeb,
    0xabec, 0x10100, 0x10103, 0x1039f, 0x103a0, 0x103d0, 0x103d1, 0x10857, 0x10858, 0x1091f,
    0x10920, 0x10a50, 0x10a58, 0x10af0, 0x10af6, 0x10b39, 0x10b40, 0x10ead, 0x10eae, 0x11047,
    0x11049, 0x110be, 0x110c2, 0x11140, 0x11144, 0x111c5, 0x111c7, 0x111c8, 0x111c9, 0x111dd,
    0x111e0, 0x11238, 0x1123a, 0x1123b, 0x1123d, 0x112a9, 0x112aa, 0x1144b, 0x1144f, 0x1145a,
    0x1145c, 0x115c2, 0x115c4, 0x115c9, 0x115d8, 0x11641, 0x11643, 0x1173c, 0x1173f, 0x11944,
    0x11947, 0x11a41, 0x11a45, 0x11a9a, 0x11a9d, 0x11aa1, 0x11aa3, 0x11c41, 0x11c46, 0x11f43,
    0x11f45, 0x11fff, 0x12000, 0x12470, 0x12475, 0x16a6e, 0x16a70, 0x16af5, 0x16af6, 0x16b37,
    0x16b3a, 0x16b44, 0x16b45, 0x16e97, 0x16e99, 0x1bc9f, 0x1bca0, 0x1da87, 0x1da8b]

def breaksBefore : CodeSet where
  bounds := #[
    0xb4, 0xb5, 0x2c8, 0x2c9, 0x2cc, 0x2cd, 0x2df, 0x2e0, 0xc77, 0xc78, 0xc84, 0xc85, 0xf01, 0xf05,
    0xf06, 0xf08, 0xf09, 0xf0b, 0xfd0, 0xfd2, 0xfd3, 0xfd4, 0x1806, 0x1807, 0x1ffd, 0x1ffe, 0xa874,
    0xa876, 0xa8fc, 0xa8fd, 0x11175, 0x11176, 0x111db, 0x111dc, 0x115c1, 0x115c2, 0x11660, 0x1166d,
    0x119e2, 0x119e3, 0x11a3f, 0x11a40, 0x11a45, 0x11a46, 0x11a9e, 0x11aa1, 0x11b00, 0x11b0a,
    0x11c70, 0x11c71]

def breaksBoth : CodeSet where
  bounds := #[
    0x2014, 0x2015, 0x2e3a, 0x2e3c]

def glues : CodeSet where
  bounds := #[
    0xa0, 0xa1, 0x34f, 0x350, 0x35c, 0x363, 0xf08, 0xf09, 0xf0c, 0xf0d, 0xf12, 0xf13, 0xfd9, 0xfdb,
    0x180e, 0x180f, 0x1dcd, 0x1dce, 0x1dfc, 0x1dfd, 0x2007, 0x2008, 0x2011, 0x2012, 0x202f, 0x2030,
    0x13430, 0x13437, 0x13439, 0x1343c, 0x16fe4, 0x16fe5]

def nonstarters : CodeSet where
  bounds := #[
    0x17d6, 0x17d7, 0x203c, 0x203e, 0x2047, 0x204a, 0x3005, 0x3006, 0x301c, 0x301d, 0x303b, 0x303d,
    0x3041, 0x3042, 0x3043, 0x3044, 0x3045, 0x3046, 0x3047, 0x3048, 0x3049, 0x304a, 0x3063, 0x3064,
    0x3083, 0x3084, 0x3085, 0x3086, 0x3087, 0x3088, 0x308e, 0x308f, 0x3095, 0x3097, 0x309b, 0x309f,
    0x30a0, 0x30a2, 0x30a3, 0x30a4, 0x30a5, 0x30a6, 0x30a7, 0x30a8, 0x30a9, 0x30aa, 0x30c3, 0x30c4,
    0x30e3, 0x30e4, 0x30e5, 0x30e6, 0x30e7, 0x30e8, 0x30ee, 0x30ef, 0x30f5, 0x30f7, 0x30fb, 0x30ff,
    0x31f0, 0x3200, 0xa015, 0xa016, 0xfe54, 0xfe56, 0xff1a, 0xff1c, 0xff65, 0xff66, 0xff67, 0xff71,
    0xff9e, 0xffa0, 0x16fe0, 0x16fe4, 0x1b132, 0x1b133, 0x1b150, 0x1b153, 0x1b155, 0x1b156,
    0x1b164, 0x1b168, 0x1f679, 0x1f67c]

def digits : CodeSet where
  bounds := #[
    0x30, 0x3a, 0x660, 0x66a, 0x66b, 0x66d, 0x6f0, 0x6fa, 0x7c0, 0x7ca, 0x966, 0x970, 0x9e6, 0x9f0,
    0xa66, 0xa70, 0xae6, 0xaf0, 0xb66, 0xb70, 0xbe6, 0xbf0, 0xc66, 0xc70, 0xce6, 0xcf0, 0xd66,
    0xd70, 0xde6, 0xdf0, 0xe50, 0xe5a, 0xed0, 0xeda, 0xf20, 0xf2a, 0x1040, 0x104a, 0x1090, 0x109a,
    0x17e0, 0x17ea, 0x1810, 0x181a, 0x1946, 0x1950, 0x19d0, 0x19da, 0x1a80, 0x1a8a, 0x1a90, 0x1a9a,
    0x1b50, 0x1b5a, 0x1bb0, 0x1bba, 0x1c40, 0x1c4a, 0x1c50, 0x1c5a, 0xa620, 0xa62a, 0xa8d0, 0xa8da,
    0xa900, 0xa90a, 0xa9d0, 0xa9da, 0xa9f0, 0xa9fa, 0xaa50, 0xaa5a, 0xabf0, 0xabfa, 0x104a0,
    0x104aa, 0x10d30, 0x10d3a, 0x11066, 0x11070, 0x110f0, 0x110fa, 0x11136, 0x11140, 0x111d0,
    0x111da, 0x112f0, 0x112fa, 0x11450, 0x1145a, 0x114d0, 0x114da, 0x11650, 0x1165a, 0x116c0,
    0x116ca, 0x11730, 0x1173a, 0x118e0, 0x118ea, 0x11950, 0x1195a, 0x11c50, 0x11c5a, 0x11d50,
    0x11d5a, 0x11da0, 0x11daa, 0x11f50, 0x11f5a, 0x16a60, 0x16a6a, 0x16ac0, 0x16aca, 0x16b50,
    0x16b5a, 0x1d7ce, 0x1d800, 0x1e140, 0x1e14a, 0x1e2f0, 0x1e2fa, 0x1e4f0, 0x1e4fa, 0x1e950,
    0x1e95a, 0x1fbf0, 0x1fbfa]

def openings : CodeSet where
  bounds := #[
    0x28, 0x29, 0x5b, 0x5c, 0x7b, 0x7c, 0xa1, 0xa2, 0xbf, 0xc0, 0xf3a, 0xf3b, 0xf3c, 0xf3d, 0x169b,
    0x169c, 0x201a, 0x201b, 0x201e, 0x201f, 0x2045, 0x2046, 0x207d, 0x207e, 0x208d, 0x208e, 0x2308,
    0x2309, 0x230a, 0x230b, 0x2768, 0x2769, 0x276a, 0x276b, 0x276c, 0x276d, 0x276e, 0x276f, 0x2770,
    0x2771, 0x2772, 0x2773, 0x2774, 0x2775, 0x27c5, 0x27c6, 0x27e6, 0x27e7, 0x27e8, 0x27e9, 0x27ea,
    0x27eb, 0x27ec, 0x27ed, 0x27ee, 0x27ef, 0x2983, 0x2984, 0x2985, 0x2986, 0x2987, 0x2988, 0x2989,
    0x298a, 0x298b, 0x298c, 0x298d, 0x298e, 0x298f, 0x2990, 0x2991, 0x2992, 0x2993, 0x2994, 0x2995,
    0x2996, 0x2997, 0x2998, 0x29d8, 0x29d9, 0x29da, 0x29db, 0x29fc, 0x29fd, 0x2e18, 0x2e19, 0x2e22,
    0x2e23, 0x2e24, 0x2e25, 0x2e26, 0x2e27, 0x2e28, 0x2e29, 0x2e42, 0x2e43, 0x2e55, 0x2e56, 0x2e57,
    0x2e58, 0x2e59, 0x2e5a, 0x2e5b, 0x2e5c, 0xfd3f, 0xfd40, 0x13258, 0x1325b, 0x13286, 0x13287,
    0x13288, 0x13289, 0x13379, 0x1337a, 0x13437, 0x13438, 0x1343c, 0x1343d, 0x1343e, 0x1343f,
    0x145ce, 0x145cf, 0x1e95e, 0x1e960]

def wideOpenings : CodeSet where
  bounds := #[
    0x2329, 0x232a, 0x3008, 0x3009, 0x300a, 0x300b, 0x300c, 0x300d, 0x300e, 0x300f, 0x3010, 0x3011,
    0x3014, 0x3015, 0x3016, 0x3017, 0x3018, 0x3019, 0x301a, 0x301b, 0x301d, 0x301e, 0xfe17, 0xfe18,
    0xfe35, 0xfe36, 0xfe37, 0xfe38, 0xfe39, 0xfe3a, 0xfe3b, 0xfe3c, 0xfe3d, 0xfe3e, 0xfe3f, 0xfe40,
    0xfe41, 0xfe42, 0xfe43, 0xfe44, 0xfe47, 0xfe48, 0xfe59, 0xfe5a, 0xfe5b, 0xfe5c, 0xfe5d, 0xfe5e,
    0xff08, 0xff09, 0xff3b, 0xff3c, 0xff5b, 0xff5c, 0xff5f, 0xff60, 0xff62, 0xff63]

def closings : CodeSet where
  bounds := #[
    0x7d, 0x7e, 0xf3b, 0xf3c, 0xf3d, 0xf3e, 0x169c, 0x169d, 0x2046, 0x2047, 0x207e, 0x207f, 0x208e,
    0x208f, 0x2309, 0x230a, 0x230b, 0x230c, 0x232a, 0x232b, 0x2769, 0x276a, 0x276b, 0x276c, 0x276d,
    0x276e, 0x276f, 0x2770, 0x2771, 0x2772, 0x2773, 0x2774, 0x2775, 0x2776, 0x27c6, 0x27c7, 0x27e7,
    0x27e8, 0x27e9, 0x27ea, 0x27eb, 0x27ec, 0x27ed, 0x27ee, 0x27ef, 0x27f0, 0x2984, 0x2985, 0x2986,
    0x2987, 0x2988, 0x2989, 0x298a, 0x298b, 0x298c, 0x298d, 0x298e, 0x298f, 0x2990, 0x2991, 0x2992,
    0x2993, 0x2994, 0x2995, 0x2996, 0x2997, 0x2998, 0x2999, 0x29d9, 0x29da, 0x29db, 0x29dc, 0x29fd,
    0x29fe, 0x2e23, 0x2e24, 0x2e25, 0x2e26, 0x2e27, 0x2e28, 0x2e29, 0x2e2a, 0x2e56, 0x2e57, 0x2e58,
    0x2e59, 0x2e5a, 0x2e5b, 0x2e5c, 0x2e5d, 0x3001, 0x3003, 0x3009, 0x300a, 0x300b, 0x300c, 0x300d,
    0x300e, 0x300f, 0x3010, 0x3011, 0x3012, 0x3015, 0x3016, 0x3017, 0x3018, 0x3019, 0x301a, 0x301b,
    0x301c, 0x301e, 0x3020, 0xfd3e, 0xfd3f, 0xfe11, 0xfe13, 0xfe18, 0xfe19, 0xfe36, 0xfe37, 0xfe38,
    0xfe39, 0xfe3a, 0xfe3b, 0xfe3c, 0xfe3d, 0xfe3e, 0xfe3f, 0xfe40, 0xfe41, 0xfe42, 0xfe43, 0xfe44,
    0xfe45, 0xfe48, 0xfe49, 0xfe50, 0xfe51, 0xfe52, 0xfe53, 0xfe5a, 0xfe5b, 0xfe5c, 0xfe5d, 0xfe5e,
    0xfe5f, 0xff09, 0xff0a, 0xff0c, 0xff0d, 0xff0e, 0xff0f, 0xff3d, 0xff3e, 0xff5d, 0xff5e, 0xff60,
    0xff62, 0xff63, 0xff65, 0x1325b, 0x1325e, 0x13282, 0x13283, 0x13287, 0x13288, 0x13289, 0x1328a,
    0x1337a, 0x1337c, 0x13438, 0x13439, 0x1343d, 0x1343e, 0x1343f, 0x13440, 0x145cf, 0x145d0]

def exclamations : CodeSet where
  bounds := #[
    0x21, 0x22, 0x3f, 0x40, 0x5c6, 0x5c7, 0x61b, 0x61c, 0x61d, 0x620, 0x6d4, 0x6d5, 0x7f9, 0x7fa,
    0xf0d, 0xf12, 0xf14, 0xf15, 0x1802, 0x1804, 0x1808, 0x180a, 0x1944, 0x1946, 0x2762, 0x2764,
    0x2cf9, 0x2cfa, 0x2cfe, 0x2cff, 0x2e2e, 0x2e2f, 0x2e53, 0x2e55, 0xa60e, 0xa60f, 0xa876, 0xa878,
    0xfe15, 0xfe17, 0xfe56, 0xfe58, 0xff01, 0xff02, 0xff1f, 0xff20, 0x115c4, 0x115c6, 0x11c71,
    0x11c72]

def separators : CodeSet where
  bounds := #[
    0x2c, 0x2d, 0x2e, 0x2f, 0x3a, 0x3c, 0x37e, 0x37f, 0x589, 0x58a, 0x60c, 0x60e, 0x7f8, 0x7f9,
    0x2044, 0x2045, 0xfe10, 0xfe11, 0xfe13, 0xfe15]

def inseparables : CodeSet where
  bounds := #[
    0x2024, 0x2027, 0x22ef, 0x22f0, 0xfe19, 0xfe1a, 0x10af6, 0x10af7]

def unitsAfter : CodeSet where
  bounds := #[
    0x25, 0x26, 0xa2, 0xa3, 0xb0, 0xb1, 0x609, 0x60c, 0x66a, 0x66b, 0x9f2, 0x9f4, 0x9f9, 0x9fa,
    0xd79, 0xd7a, 0x2030, 0x2038, 0x2057, 0x2058, 0x20a7, 0x20a8, 0x20b6, 0x20b7, 0x20bb, 0x20bc,
    0x20be, 0x20bf, 0x20c0, 0x20c1, 0x2103, 0x2104, 0x2109, 0x210a, 0xa838, 0xa839, 0xfdfc, 0xfdfd,
    0xfe6a, 0xfe6b, 0xff05, 0xff06, 0xffe0, 0xffe1, 0x11fdd, 0x11fe1, 0x1ecac, 0x1ecad, 0x1ecb0,
    0x1ecb1]

def unitsBefore : CodeSet where
  bounds := #[
    0x24, 0x25, 0x2b, 0x2c, 0x5c, 0x5d, 0xa3, 0xa6, 0xb1, 0xb2, 0x58f, 0x590, 0x7fe, 0x800, 0x9fb,
    0x9fc, 0xaf1, 0xaf2, 0xbf9, 0xbfa, 0xe3f, 0xe40, 0x17db, 0x17dc, 0x20a0, 0x20a7, 0x20a8,
    0x20b6, 0x20b7, 0x20bb, 0x20bc, 0x20be, 0x20bf, 0x20c0, 0x20c1, 0x20d0, 0x2116, 0x2117, 0x2212,
    0x2214, 0xfe69, 0xfe6a, 0xff04, 0xff05, 0xffe1, 0xffe2, 0xffe5, 0xffe7, 0x1e2ff, 0x1e300]

def quotations : CodeSet where
  bounds := #[
    0x22, 0x23, 0x27, 0x28, 0xab, 0xac, 0xbb, 0xbc, 0x2018, 0x201a, 0x201b, 0x201e, 0x201f, 0x2020,
    0x2039, 0x203b, 0x275b, 0x2761, 0x2e00, 0x2e0e, 0x2e1c, 0x2e1e, 0x2e20, 0x2e22, 0x1f676,
    0x1f679]

def hebrewLetters : CodeSet where
  bounds := #[
    0x5d0, 0x5eb, 0x5ef, 0x5f3, 0xfb1d, 0xfb1e, 0xfb1f, 0xfb29, 0xfb2a, 0xfb37, 0xfb38, 0xfb3d,
    0xfb3e, 0xfb3f, 0xfb40, 0xfb42, 0xfb43, 0xfb45, 0xfb46, 0xfb50]

def emojiBases : CodeSet where
  bounds := #[
    0x261d, 0x261e, 0x26f9, 0x26fa, 0x270a, 0x270e, 0x1f385, 0x1f386, 0x1f3c2, 0x1f3c5, 0x1f3c7,
    0x1f3c8, 0x1f3ca, 0x1f3cd, 0x1f442, 0x1f444, 0x1f446, 0x1f451, 0x1f466, 0x1f479, 0x1f47c,
    0x1f47d, 0x1f481, 0x1f484, 0x1f485, 0x1f488, 0x1f48f, 0x1f490, 0x1f491, 0x1f492, 0x1f4aa,
    0x1f4ab, 0x1f574, 0x1f576, 0x1f57a, 0x1f57b, 0x1f590, 0x1f591, 0x1f595, 0x1f597, 0x1f645,
    0x1f648, 0x1f64b, 0x1f650, 0x1f6a3, 0x1f6a4, 0x1f6b4, 0x1f6b7, 0x1f6c0, 0x1f6c1, 0x1f6cc,
    0x1f6cd, 0x1f90c, 0x1f90d, 0x1f90f, 0x1f910, 0x1f918, 0x1f920, 0x1f926, 0x1f927, 0x1f930,
    0x1f93a, 0x1f93c, 0x1f93f, 0x1f977, 0x1f978, 0x1f9b5, 0x1f9b7, 0x1f9b8, 0x1f9ba, 0x1f9bb,
    0x1f9bc, 0x1f9cd, 0x1f9d0, 0x1f9d1, 0x1f9de, 0x1fac3, 0x1fac6, 0x1faf0, 0x1faf9]

def emojiModifiers : CodeSet where
  bounds := #[
    0x1f3fb, 0x1f400]

def regionals : CodeSet where
  bounds := #[
    0x1f1e6, 0x1f200]

def leadingJamos : CodeSet where
  bounds := #[
    0x1100, 0x1160, 0xa960, 0xa97d]

def vowelJamos : CodeSet where
  bounds := #[
    0x1160, 0x11a8, 0xd7b0, 0xd7c7]

def trailingJamos : CodeSet where
  bounds := #[
    0x11a8, 0x1200, 0xd7cb, 0xd7fc]

def wordJoiners : CodeSet where
  bounds := #[
    0x2060, 0x2061, 0xfeff, 0xff00]

/-- The classes that are given by sets. -/
def tables : List (BreakClass × CodeSet) := [
  (.combining, marks), (.ideograph, ideographs), (.breakAfter, breaksAfter),
  (.breakBefore, breaksBefore), (.breakBoth, breaksBoth), (.glue, glues),
  (.nonstarter, nonstarters), (.digit, digits), (.opening, openings), (.wideOpening, wideOpenings),
  (.closing, closings), (.exclamation, exclamations), (.separator, separators),
  (.inseparable, inseparables), (.unitAfter, unitsAfter), (.unitBefore, unitsBefore),
  (.quotation, quotations), (.hebrew, hebrewLetters), (.emojiBase, emojiBases),
  (.emojiModifier, emojiModifiers), (.regional, regionals), (.leadingJamo, leadingJamos),
  (.vowelJamo, vowelJamos), (.trailingJamo, trailingJamos), (.wordJoiner, wordJoiners)]

/-- The class of a character. -/
def ofChar (c : Char) : BreakClass :=
  if c.isAlpha then .letter
  else if c.isDigit then .digit
  else match c with
  | ' '      => .blank
  | '\n'     => .lineFeed
  | '\r'     => .carriageReturn
  | '-'      => .hyphen
  | '/'      => .slash
  | ')'      => .closingBracket
  | ']'      => .closingBracket
  | '\x0b'   => .lineEnd
  | '\x0c'   => .lineEnd
  | '\u0085' => .lineEnd
  | '\u2028' => .lineEnd
  | '\u2029' => .lineEnd
  | '\u200b' => .zeroBlank
  | '\u200d' => .joiner
  | '\ufffc' => .object
  | _        =>
    if 0xac00 ≤ c.toNat && c.toNat < 0xd7a4 then
      if (c.toNat - 0xac00) % 28 = 0 then .openSyllable else .closedSyllable
    else ((tables.find? fun t => t.2.contains c).map (·.1)).getD .letter

end BreakClass

end TypedClient.Text
