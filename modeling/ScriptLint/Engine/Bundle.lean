/-!
# ScriptLint.Engine.Bundle

The texts of the two scripts that come with the library, line by line. What they do is defined by
the editions of the analyzer; the texts matter for their digests.

* `lintText`, `hintText`: the texts
-/

namespace ScriptLint.Engine.Bundle

def lintLines : List String := [
    "// jslintr baseline JSLint edition 2025-01-15.",
    "//",
    "// A compact analyzer that follows JSLint's calling convention:",
    "// JSLINT(source, options) returns true when the source is clean and leaves",
    "// its findings on JSLINT.errors as \x7bline, character, reason, evidence\x7d",
    "// records (0-indexed positions). With passfail set it stops at the first",
    "// finding and appends null, as JSLint does.",
    "//",
    "// Only a subset of JSLint's rules is implemented. Drop a full upstream",
    "// jslint.js into JSLINTR_ENGINE_DIR to use the real analyzer instead.",
    "",
    "var JSLINT = (function () \x7b",
    "    \"use strict\";",
    "",
    "    // Blank out string literals and comments so rules only see code.",
    "    // Columns are preserved; `state.comment` carries block comments across lines.",
    "    function mask(text, state) \x7b",
    "        var out = \"\", index = 0, quote = null, ch;",
    "",
    "        while (index < text.length) \x7b",
    "            ch = text.charAt(index);",
    "            if (state.comment) \x7b",
    "                if (ch === \"*\" && text.charAt(index + 1) === \"/\") \x7b",
    "                    state.comment = false;",
    "                    out += \"  \";",
    "                    index += 2;",
    "                    continue;",
    "                \x7d",
    "                out += \" \";",
    "            \x7d else if (quote) \x7b",
    "                if (ch === \"\\\\\") \x7b",
    "                    out += \"  \";",
    "                    index += 2;",
    "                    continue;",
    "                \x7d",
    "                if (ch === quote) \x7b",
    "                    quote = null;",
    "                    out += ch;",
    "                \x7d else \x7b",
    "                    out += \" \";",
    "                \x7d",
    "            \x7d else if (ch === \"/\" && text.charAt(index + 1) === \"/\") \x7b",
    "                break;",
    "            \x7d else if (ch === \"/\" && text.charAt(index + 1) === \"*\") \x7b",
    "                state.comment = true;",
    "                out += \"  \";",
    "                index += 2;",
    "                continue;",
    "            \x7d else \x7b",
    "                if (ch === \"'\" || ch === \"\\\"\") \x7b",
    "                    quote = ch;",
    "                \x7d",
    "                out += ch;",
    "            \x7d",
    "            index += 1;",
    "        \x7d",
    "        return out.replace(/\\s+$/, \"\");",
    "    \x7d",
    "",
    "    function analyze(source, options) \x7b",
    "        var lines = String(source).split(/\\r\\n|\\n|\\r/),",
    "            errors = [],",
    "            state = \x7bcomment: false\x7d,",
    "            index,",
    "            code,",
    "            at,",
    "            match;",
    "",
    "        function warn(line, character, reason) \x7b",
    "            errors.push(\x7b",
    "                id: \"(error)\",",
    "                line: line,",
    "                character: character,",
    "                reason: reason,",
    "                evidence: lines[line] || \"\"",
    "            \x7d);",
    "            if (options.passfail) \x7b",
    "                errors.push(null);",
    "                return true;",
    "            \x7d",
    "            return false;",
    "        \x7d",
    "",
    "        if (options.strict && !/(['\"])use strict\\1/.test(source)) \x7b",
    "            if (warn(0, 0, \"Missing \\\"use strict\\\" statement.\")) \x7b",
    "                return errors;",
    "            \x7d",
    "        \x7d",
    "        for (index = 0; index < lines.length; index += 1) \x7b",
    "            code = mask(lines[index], state);",
    "            if (code === \"\") \x7b",
    "                continue;",
    "            \x7d",
    "            at = code.search(/[^=!]==[^=]|[^=!]!=[^=]/);",
    "            if (options.eqeqeq && at !== -1) \x7b",
    "                match = code.substr(at + 1, 2);",
    "                if (warn(index, at + 1, \"Expected '\" + match + \"=' and instead saw '\" + match + \"'.\")) \x7b",
    "                    return errors;",
    "                \x7d",
    "            \x7d",
    "            at = code.search(/\\beval\\s*\\(/);",
    "            if (!options.evil && at !== -1) \x7b",
    "                if (warn(index, at, \"eval is evil.\")) \x7b",
    "                    return errors;",
    "                \x7d",
    "            \x7d",
    "            at = code.search(/\\+\\+|--/);",
    "            if (options.plusplus && at !== -1) \x7b",
    "                if (warn(index, at, \"Unexpected '\" + code.substr(at, 2) + \"'.\")) \x7b",
    "                    return errors;",
    "                \x7d",
    "            \x7d",
    "            at = code.search(/\\bdebugger\\b/);",
    "            if (!options.debug && at !== -1) \x7b",
    "                if (warn(index, at, \"Unexpected 'debugger'.\")) \x7b",
    "                    return errors;",
    "                \x7d",
    "            \x7d",
    "            match = /\\b_[\\w$]*|\\b[\\w$]*[A-Za-z0-9$]_\\b/.exec(code);",
    "            if (options.nomen && match) \x7b",
    "                if (warn(index, match.index, \"Unexpected dangling '_' in '\" + match[0] + \"'.\")) \x7b",
    "                    return errors;",
    "                \x7d",
    "            \x7d",
    "            if (options.white && /[ \\t]+$/.test(lines[index])) \x7b",
    "                if (warn(index, code.length, \"Unexpected trailing space.\")) \x7b",
    "                    return errors;",
    "                \x7d",
    "            \x7d",
    "            if (!state.comment && !/[;\x7b\x7d,(\\[:]$/.test(code) && !/^\\s*[\x7d)\\]]/.test(code)) \x7b",
    "                if (warn(index, code.length, \"Missing semicolon.\")) \x7b",
    "                    return errors;",
    "                \x7d",
    "            \x7d",
    "        \x7d",
    "        return errors;",
    "    \x7d",
    "",
    "    var itself = function (source, options) \x7b",
    "        itself.errors = analyze(source, options || \x7b\x7d);",
    "        return itself.errors.length === 0;",
    "    \x7d;",
    "",
    "    itself.edition = \"2025-01-15\";",
    "    itself.errors = [];",
    "    return itself;",
    "\x7d());"]

def hintLines : List String := [
    "// jslintr baseline JSHint edition 2025-01-15.",
    "//",
    "// A compact analyzer that follows JSHint's calling convention:",
    "// JSHINT(source, options) returns true when the source is clean and leaves",
    "// its findings on JSHINT.errors as \x7bline, character, reason, evidence\x7d",
    "// records (0-indexed positions). Unlike JSLint it keeps scanning after the",
    "// first finding and honours the lenient asi, boss and devel switches.",
    "//",
    "// Only a subset of JSHint's rules is implemented. Drop a full upstream",
    "// jshint.js into JSLINTR_ENGINE_DIR to use the real analyzer instead.",
    "",
    "var JSHINT = (function () \x7b",
    "    \"use strict\";",
    "",
    "    // Same column-preserving blanking of strings and comments as the JSLint",
    "    // edition; `state.comment` spans lines.",
    "    function mask(text, state) \x7b",
    "        var out = [], index, ch, quote = null;",
    "",
    "        for (index = 0; index < text.length; index += 1) \x7b",
    "            ch = text.charAt(index);",
    "            if (state.comment) \x7b",
    "                if (ch === \"*\" && text.charAt(index + 1) === \"/\") \x7b",
    "                    state.comment = false;",
    "                    out.push(\" \");",
    "                    index += 1;",
    "                \x7d",
    "                out.push(\" \");",
    "            \x7d else if (quote) \x7b",
    "                if (ch === \"\\\\\") \x7b",
    "                    out.push(\" \");",
    "                    index += 1;",
    "                    ch = \" \";",
    "                \x7d else if (ch === quote) \x7b",
    "                    quote = null;",
    "                \x7d else \x7b",
    "                    ch = \" \";",
    "                \x7d",
    "                out.push(ch);",
    "            \x7d else if (ch === \"/\" && text.charAt(index + 1) === \"/\") \x7b",
    "                break;",
    "            \x7d else if (ch === \"/\" && text.charAt(index + 1) === \"*\") \x7b",
    "                state.comment = true;",
    "                out.push(\"  \");",
    "                index += 1;",
    "            \x7d else \x7b",
    "                if (ch === \"'\" || ch === \"\\\"\") \x7b",
    "                    quote = ch;",
    "                \x7d",
    "                out.push(ch);",
    "            \x7d",
    "        \x7d",
    "        return out.join(\"\").replace(/\\s+$/, \"\");",
    "    \x7d",
    "",
    "    var rules = [",
    "        \x7b",
    "            when: function (o) \x7b return o.eqeqeq; \x7d,",
    "            pattern: /[^=!](==|!=)[^=]/,",
    "            offset: 1,",
    "            reason: function (m) \x7b return \"Expected '\" + m[1] + \"=' and instead saw '\" + m[1] + \"'.\"; \x7d",
    "        \x7d,",
    "        \x7b",
    "            when: function (o) \x7b return !o.evil; \x7d,",
    "            pattern: /\\beval\\s*\\(/,",
    "            reason: function () \x7b return \"eval can be harmful.\"; \x7d",
    "        \x7d,",
    "        \x7b",
    "            when: function (o) \x7b return o.plusplus; \x7d,",
    "            pattern: /\\+\\+|--/,",
    "            reason: function (m) \x7b return \"Unexpected use of '\" + m[0] + \"'.\"; \x7d",
    "        \x7d,",
    "        \x7b",
    "            when: function (o) \x7b return !o.debug; \x7d,",
    "            pattern: /\\bdebugger\\b/,",
    "            reason: function () \x7b return \"Forgotten 'debugger' statement?\"; \x7d",
    "        \x7d,",
    "        \x7b",
    "            when: function (o) \x7b return !o.devel; \x7d,",
    "            pattern: /\\b(?:console|alert)\\b/,",
    "            reason: function (m) \x7b return \"'\" + m[0] + \"' is not defined.\"; \x7d",
    "        \x7d,",
    "        \x7b",
    "            when: function (o) \x7b return o.noarg; \x7d,",
    "            pattern: /\\barguments\\.(?:callee|caller)\\b/,",
    "            reason: function () \x7b return \"Avoid arguments.callee.\"; \x7d",
    "        \x7d,",
    "        \x7b",
    "            when: function (o) \x7b return o.nonew; \x7d,",
    "            pattern: /^\\s*new\\s+[\\w$]/,",
    "            reason: function () \x7b return \"Do not use 'new' for side effects.\"; \x7d",
    "        \x7d,",
    "        \x7b",
    "            when: function (o) \x7b return !o.boss; \x7d,",
    "            pattern: /\\b(?:if|while)\\s*\\([^=!<>]*[^=!<>]=[^=][^)]*\\)/,",
    "            reason: function () \x7b return \"Expected a conditional expression and instead saw an assignment.\"; \x7d",
    "        \x7d,",
    "        \x7b",
    "            when: function (o) \x7b return o.curly; \x7d,",
    "            pattern: /\\b(?:if|while|for)\\s*\\(.*\\)\\s*([A-Za-z_$][\\w$]*)/,",
    "            column: function (code, m) \x7b return code.lastIndexOf(m[1]); \x7d,",
    "            reason: function (m) \x7b return \"Expected '\x7b' and instead saw '\" + m[1] + \"'.\"; \x7d",
    "        \x7d,",
    "        \x7b",
    "            when: function (o) \x7b return o.noempty; \x7d,",
    "            pattern: /\\\x7b\\s*\\\x7d/,",
    "            reason: function () \x7b return \"Empty block.\"; \x7d",
    "        \x7d",
    "    ];",
    "",
    "    function analyze(source, options) \x7b",
    "        var lines = String(source).split(/\\r\\n|\\n|\\r/),",
    "            errors = [],",
    "            state = \x7bcomment: false\x7d;",
    "",
    "        function warn(line, character, reason) \x7b",
    "            errors.push(\x7b",
    "                id: \"(error)\",",
    "                line: line,",
    "                character: character,",
    "                reason: reason,",
    "                evidence: lines[line] || \"\"",
    "            \x7d);",
    "        \x7d",
    "",
    "        if (options.strict && !/(['\"])use strict\\1/.test(source)) \x7b",
    "            warn(0, 0, \"Missing \\\"use strict\\\" statement.\");",
    "        \x7d",
    "        lines.forEach(function (text, index) \x7b",
    "            var code = mask(text, state);",
    "",
    "            if (code === \"\") \x7b",
    "                return;",
    "            \x7d",
    "            rules.forEach(function (rule) \x7b",
    "                var m;",
    "",
    "                if (!rule.when(options)) \x7b",
    "                    return;",
    "                \x7d",
    "                m = rule.pattern.exec(code);",
    "                if (m) \x7b",
    "                    warn(index, rule.column ? rule.column(code, m) : m.index + (rule.offset || 0), rule.reason(m));",
    "                \x7d",
    "            \x7d);",
    "            if (options.white && /[ \\t]+$/.test(text)) \x7b",
    "                warn(index, code.length, \"Trailing whitespace.\");",
    "            \x7d",
    "            if (!options.asi && !state.comment && !/[;\x7b\x7d,(\\[:]$/.test(code) && !/^\\s*[\x7d)\\]]/.test(code)) \x7b",
    "                warn(index, code.length, \"Missing semicolon.\");",
    "            \x7d",
    "        \x7d);",
    "        return errors;",
    "    \x7d",
    "",
    "    var itself = function (source, options) \x7b",
    "        itself.errors = analyze(source, options || \x7b\x7d);",
    "        return itself.errors.length === 0;",
    "    \x7d;",
    "",
    "    itself.edition = \"2025-01-15\";",
    "    itself.errors = [];",
    "    return itself;",
    "\x7d());"]

def textOf (ls : List String) : String := String.join (ls.map (· ++ "\n"))

def lintText : String := textOf lintLines

def hintText : String := textOf hintLines

end ScriptLint.Engine.Bundle
